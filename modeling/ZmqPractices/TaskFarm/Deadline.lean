import ZmqPractices.Czmq.Format
import ZmqPractices.TaskFarm.Rtreq

/-!
The end of the broker's time (`rtreq.cpp`, with `s_clock` of `zhelpers.h`).

`end_time` is one reading of the clock and 5000 more. The POSIX clock counts from the
epoch, and passes it 5000 ms later. The Windows clock is made of the second of the minute
and the milliseconds: it starts again at every full minute, and the test is then true
again; a broker that starts in the last five seconds of a minute fires nobody at all.

Instants are milliseconds since the epoch. The clocks are computed without overflow, as
they are at 64 bits.
-/

namespace ZmqPractices.TaskFarm

open Czmq Lib

/-! ### The clock -/

/-- `struct timeval`. -/
structure Timeval where
  tvSec : Int
  tvUsec : Int

/-- The fields of `SYSTEMTIME` that are read. -/
structure SystemTime where
  wSecond : Int
  wMilliseconds : Int

/-- What `gettimeofday` gives at an instant. -/
def gettimeofday (t : Nat) : Timeval := ⟨t / 1000, t % 1000 * 1000⟩

/-- What `GetSystemTime` gives at an instant. -/
def getSystemTime (t : Nat) : SystemTime := ⟨t / 1000 % 60, t % 1000⟩

def sClock (build : Build) (t : Nat) : Int :=
  match build with
  | .posix =>
      let tv := gettimeofday t
      tv.tvSec * 1000 + tv.tvUsec / 1000
  | .windows =>
      let st := getSystemTime t
      st.wSecond * 1000 + st.wMilliseconds

/-- `end_time` of a broker that starts at the instant `t0`. -/
def endTime (build : Build) (t0 : Nat) : Int := sClock build t0 + 5000

/-- The POSIX clock returns the instant. -/
theorem sClock_posix (t : Nat) : sClock .posix t = t := by
  simp only [sClock, gettimeofday]
  omega

/-- The Windows clock returns the instant within its minute. -/
theorem sClock_windows (t : Nat) : sClock .windows t = t % 60000 := by
  simp only [sClock, getSystemTime]
  omega

/-! ### The test of the broker -/

/-- At the instant `t` the test of the loop says whether the five seconds from `t0` on are
still running. -/
def RightAt (build : Build) (t0 t : Nat) : Prop :=
  sClock build t < endTime build t0 ↔ t < t0 + 5000

instance (build : Build) (t0 t : Nat) : Decidable (RightAt build t0 t) :=
  inferInstanceAs (Decidable (_ ↔ _))

/-- The instant is in the five seconds, or it is after them in its minute, counted from
`t0`, and no full minute of the clock lies between that and `t0`. -/
def NotWrapped (t0 t : Nat) : Prop :=
  t < t0 + 5000 ∨ (5000 ≤ (t - t0) % 60000 ∧ t0 % 60000 + (t - t0) % 60000 < 60000)

theorem rightAt_posix (t0 t : Nat) : RightAt .posix t0 t := by
  unfold RightAt endTime
  rw [sClock_posix, sClock_posix]
  omega

theorem rightAt_windows_iff {t0 t : Nat} (after : t0 ≤ t) :
    RightAt .windows t0 t ↔ NotWrapped t0 t := by
  unfold RightAt NotWrapped endTime
  rw [sClock_windows, sClock_windows]
  omega

/-- A minute after the start the test is true again, whatever the start. -/
theorem not_rightAt_minute (t0 : Nat) : ¬ RightAt .windows t0 (t0 + 60000) := by
  rw [rightAt_windows_iff (Nat.le_add_right _ _), NotWrapped]
  omega

/-- **The deadline.** For each start the test is right at all instants from then on exactly
in the POSIX build; in the Windows build it is right at those that are not wrapped. -/
theorem deadline_iff (build : Build) (t0 : Nat) :
    ((∀ t, t0 ≤ t → RightAt build t0 t) ↔ build = .posix) ∧
      ∀ t, t0 ≤ t → (RightAt build t0 t ↔ build = .posix ∨ NotWrapped t0 t) := by
  cases build with
  | posix =>
      have right := rightAt_posix t0
      exact ⟨iff_of_true (fun t _ => right t) rfl,
        fun t _ => iff_of_true (right t) (.inl rfl)⟩
  | windows =>
      refine ⟨iff_of_false (fun right => ?_) (by simp), fun t after => ?_⟩
      · exact not_rightAt_minute t0 (right (t0 + 60000) (Nat.le_add_right _ _))
      · simp [rightAt_windows_iff after]

/-- Started in second 57 of a minute, after five seconds the test is still true. -/
theorem deadline_missed : 1717243257000 ≤ 1717243262000 ∧
    sClock .windows 1717243262000 < endTime .windows 1717243257000 ∧
    ¬ RightAt .windows 1717243257000 1717243262000 := by
  decide

/-! ### Who is fired -/

section

variable {identities : List Frame} {build : Build} {t0 : Nat} {s s' : Farm}

/-- The answer to a worker is what the test of the clock says. -/
theorem told_answer {identity : Frame} (answering : s.broker = .answering identity)
    (mem : identity ∈ identities) {t : Nat}
    (taken : step identities (endTime build t0) s (.answer (sClock build t)) = some s') :
    s'.told identity =
      (if sClock build t < endTime build t0 then workHarder else firedText) ::
        s.told identity := by
  simp only [step, answering] at taken
  split at taken
  · rename_i running
    obtain rfl := Option.some.inj taken
    simp [Farm.route, mem, running]
  · rename_i passed
    obtain rfl := Option.some.inj taken
    simp [Farm.route, mem, passed]

/-- Where the test is right, a worker answered at `t` is fired from the deadline on. -/
theorem told_answer_of_rightAt {identity : Frame} (answering : s.broker = .answering identity)
    (mem : identity ∈ identities) {t : Nat} (right : RightAt build t0 t)
    (taken : step identities (endTime build t0) s (.answer (sClock build t)) = some s') :
    s'.told identity =
      (if t < t0 + 5000 then workHarder else firedText) :: s.told identity := by
  rw [told_answer answering mem taken, if_congr right rfl rfl]

/-- The broker reads the clock of its build. -/
def ReadsClock (build : Build) (_ : Farm) : Label → Prop
  | .answer now => ∃ t, now = sClock build t
  | _ => True

/-- Nobody has been told that they are fired. -/
structure NobodyFired (s : Farm) : Prop where
  none_told : ∀ identity, firedText ∉ s.told identity
  none_counted : s.workersFired = 0

/-- In the last five seconds of a minute the stored sum is more than the clock ever shows. -/
theorem windows_before_end (late : 55000 ≤ t0 % 60000) (t : Nat) :
    sClock .windows t < endTime .windows t0 := by
  rw [endTime, sClock_windows, sClock_windows]
  omega

theorem NobodyFired.harder (nobody : NobodyFired s) (identity : Frame) {broker : Broker} :
    NobodyFired { s.route identities identity workHarder with broker := broker } where
  none_told other fired := by
    by_cases mem : identity ∈ identities
    · by_cases same : other = identity
      · subst same
        simp only [Farm.route, mem, if_true, Function.update_self, List.mem_cons] at fired
        rcases fired with text | fired
        · exact absurd text (by decide)
        · exact nobody.none_told other fired
      · simp only [Farm.route, mem, if_true, Function.update_of_ne same] at fired
        exact nobody.none_told other fired
    · simp only [Farm.route, mem, if_false] at fired
      exact nobody.none_told other fired
  none_counted := by
    unfold Farm.route
    split <;> exact nobody.none_counted

theorem NobodyFired.step (late : 55000 ≤ t0 % 60000) {l : Label} (nobody : NobodyFired s)
    (reads : ReadsClock .windows s l)
    (taken : step identities (endTime .windows t0) s l = some s') : NobodyFired s' := by
  cases l with
  | ask identity =>
      obtain ⟨-, ⟨⟩⟩ := Option.ite_none_right_eq_some.mp taken
      exact ⟨nobody.none_told, nobody.none_counted⟩
  | receive identity =>
      obtain ⟨-, taken⟩ := Option.ite_none_right_eq_some.mp taken
      obtain ⟨⟨msg, net⟩, -, rfl⟩ := Option.map_eq_some_iff.mp taken
      dsimp only
      split <;> exact ⟨nobody.none_told, nobody.none_counted⟩
  | read identity =>
      obtain ⟨-, taken⟩ := Option.ite_none_right_eq_some.mp taken
      obtain ⟨⟨msg, net⟩, -, taken⟩ := Option.bind_eq_some_iff.mp taken
      obtain ⟨identity, -, rfl⟩ := Option.map_eq_some_iff.mp taken
      exact ⟨nobody.none_told, nobody.none_counted⟩
  | answer now =>
      obtain ⟨t, rfl⟩ := reads
      simp only [TaskFarm.step] at taken
      split at taken
      · rename_i identity answering
        rw [if_pos (windows_before_end late t)] at taken
        obtain rfl := Option.some.inj taken
        exact nobody.harder identity
      · simp at taken

/-- A broker of the Windows build that starts in the last five seconds of a minute never
fires anybody. -/
theorem nobody_fired (late : 55000 ≤ t0 % 60000) {past : List (Farm × Label)}
    (run : Run (farm identities (endTime .windows t0)) past s)
    (reads : EachStep (ReadsClock .windows) past) : Always NobodyFired past s :=
  run.guarded_invariant NobodyFired (ReadsClock .windows)
    ⟨fun _ => List.not_mem_nil, rfl⟩
    (fun _ _ _ nobody reads taken => nobody.step late reads taken) reads

end

end ZmqPractices.TaskFarm
