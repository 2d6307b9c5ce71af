import ZmqPractices.LazyPirate.Client
import ZmqPractices.Czmq.Format

/-!
The texts of a Lazy Pirate client's requests, and how often it sends each.

The number in front makes the texts of different requests different, and a text has
neither a NUL nor a `%` among its bytes, so that it is sent and received as it is.
`InStep` is what holds of a client whose replies have all been correct: it has sent each
text at most `requestRetries` times, and has one request out or none.
-/

namespace ZmqPractices.LazyPirate

open Czmq Lib

/-! ### Texts -/

/-- Different numbers make different texts. -/
theorem seq_of_requestText {seq seq' rand rand' : Nat}
    (same : requestText seq rand = requestText seq' rand') : seq = seq' :=
  (padded_append_injective (by decide) same).1

theorem mem_requestText {seq rand : Nat} {byte : UInt8} (mem : byte ∈ requestText seq rand) :
    IsHexDigit byte ∨ byte = 0x2d := by
  rw [requestText, List.mem_append, List.mem_cons] at mem
  rcases mem with digit | dash | digit
  · exact .inl (.inl (isDigit_of_mem_padded digit))
  · exact .inr dash
  · exact .inl (isHexDigit_of_mem_printed digit)

theorem plain_requestText (seq rand : Nat) : Plain (requestText seq rand) where
  nulFree mem := absurd (mem_requestText mem) (by decide)
  unformatted mem := absurd (mem_requestText mem) (by decide)

/-! ### A client and its requests -/

/-- The request whose reply the client's socket expects. -/
def Client.outstanding (c : Client) : List Frame := if c.awaiting then [c.request] else []

/-- What holds of a client that has got no malformed reply. -/
structure InStep (c : Client) : Prop where
  counted : Counted c
  waits : c.phase = .inner → c.awaiting = true
  free : c.phase = .outer → c.goesOn = true → c.awaiting = false ∧ c.failures = 0
  current : c.phase = .inner → ∃ rand, c.request = requestText c.requestSeq rand
  numbered : ∀ text ∈ c.sent, ∃ seq ≤ c.requestSeq, ∃ rand, text = requestText seq rand
  tries : c.phase = .inner → c.sent.count c.request = c.failures + 1
  few : ∀ text, c.sent.count text ≤ requestRetries

namespace InStep

variable {c c' : Client}

theorem start : InStep .start where
  counted := .start
  waits := Phase.noConfusion
  free _ _ := ⟨rfl, rfl⟩
  current := Phase.noConfusion
  numbered _ mem := absurd mem List.not_mem_nil
  tries := Phase.noConfusion
  few _ := Nat.zero_le _

/-- A waiting client has its request out. -/
theorem outstanding_inner (inStep : InStep c) (inner : c.phase = .inner) :
    c.outstanding = [c.request] := if_pos (inStep.waits inner)

theorem plain_request (inStep : InStep c) (inner : c.phase = .inner) : Plain c.request := by
  obtain ⟨rand, text⟩ := inStep.current inner
  exact text ▸ plain_requestText _ _

/-- A new request has a text that was never sent. -/
theorem send {rand : Nat} (before : InStep c) (taken : clientStep c (.send rand) = some c') :
    InStep c' ∧ c.outstanding = [] ∧ c'.outstanding = [c'.request] ∧
      c'.sent = c'.request :: c.sent ∧ c'.request ∉ c.sent := by
  have counted := before.counted.send taken
  obtain ⟨⟨outer, goesOn, -⟩, entered⟩ := Option.ite_none_right_eq_some.mp taken
  obtain rfl := Option.some.inj entered
  obtain ⟨free, fresh⟩ := before.free outer goesOn
  have new : requestText (c.requestSeq + 1) rand ∉ c.sent := by
    intro mem
    obtain ⟨seq, le, _, same⟩ := before.numbered _ mem
    have := seq_of_requestText same
    omega
  have none_yet := List.count_eq_zero.mpr new
  have once : (requestText (c.requestSeq + 1) rand :: c.sent).count
      (requestText (c.requestSeq + 1) rand) = c.failures + 1 := by
    rw [List.count_cons_self, none_yet, fresh]
  refine ⟨?_, if_neg (by simp [free]), rfl, rfl, new⟩
  refine ⟨counted, fun _ => rfl, Phase.noConfusion, fun _ => ⟨rand, rfl⟩, ?_, fun _ => once, ?_⟩
  · intro text mem
    rcases List.mem_cons.mp mem with rfl | mem
    · exact ⟨c.requestSeq + 1, le_rfl, rand, rfl⟩
    · obtain ⟨seq, le, rest⟩ := before.numbered text mem
      exact ⟨seq, Nat.le_succ_of_le le, rest⟩
  · intro text
    by_cases same : text = requestText (c.requestSeq + 1) rand
    · subst same
      exact once.le.trans (by rw [fresh]; decide)
    · exact (List.count_cons_of_ne (Ne.symm same)).le.trans (before.few text)

/-- A timeout is the last one, or the request is sent once more. -/
theorem timeout (before : InStep c) (taken : clientStep c .timeout = some c') :
    InStep c' ∧ c'.request = c.request ∧ c.outstanding = [c.request] ∧
      c'.outstanding = [c.request] ∧
      c'.sent = if c'.phase = .inner then c.request :: c.sent else c.sent := by
  obtain ⟨inner, timedOut⟩ := Option.ite_none_right_eq_some.mp taken
  obtain rfl := Option.some.inj timedOut
  have counted := before.counted.timedOut inner
  have awaiting := before.waits inner
  have tries := before.tries inner
  have waiting := before.counted.inner inner
  have out := before.outstanding_inner inner
  unfold Client.timedOut at counted ⊢
  dsimp only at counted ⊢
  split
  · rename_i last
    rw [if_pos last] at counted
    refine ⟨⟨counted, Phase.noConfusion, ?_, Phase.noConfusion, before.numbered,
      Phase.noConfusion, before.few⟩, rfl, out, out, rfl⟩
    intro _ goesOn
    simp [Client.goesOn, last] at goesOn
  · rename_i more
    rw [if_neg more] at counted
    have again : (c.request :: c.sent).count c.request = c.failures + 1 + 1 := by
      rw [List.count_cons_self, tries]
    refine ⟨⟨counted, fun _ => rfl, ?_, ?_, ?_, fun _ => again, ?_⟩, rfl, out, rfl, ?_⟩
    · exact fun outer => absurd (inner.symm.trans outer) (by decide)
    · exact before.current
    · intro text mem
      rcases List.mem_cons.mp mem with rfl | mem
      · obtain ⟨rand, text⟩ := before.current inner
        exact ⟨c.requestSeq, le_rfl, rand, text⟩
      · exact before.numbered text mem
    · intro text
      by_cases same : text = c.request
      · subst same
        have left := counted.inner inner
        show (c.request :: c.sent).count c.request ≤ requestRetries
        rw [again]
        exact left
      · exact (List.count_cons_of_ne (Ne.symm same)).le.trans (before.few text)
    · exact (if_pos inner).symm

/-- The correct reply ends the wait. -/
theorem reply (before : InStep c) (taken : clientStep c (.reply c.request) = some c') :
    InStep c' ∧ c'.outstanding = [] ∧ c'.sent = c.sent := by
  obtain ⟨⟨inner, -⟩, received⟩ := Option.ite_none_right_eq_some.mp taken
  obtain rfl := Option.some.inj received
  have correct : zframeStrdup c.request = c.request := (before.plain_request inner).zstrRecv
  have counted : Counted (c.received c.request) :=
    before.counted.received inner fun malformed => absurd correct malformed
  rw [received_correct correct] at counted ⊢
  exact ⟨⟨counted, Phase.noConfusion, fun _ _ => ⟨rfl, rfl⟩, Phase.noConfusion,
    before.numbered, Phase.noConfusion, before.few⟩, rfl, rfl⟩

/-- Leaving the loop or being interrupted changes nothing about the requests. -/
theorem quiet {e : Event} (before : InStep c) (kind : e = .leave ∨ e = .interrupt)
    (taken : clientStep c e = some c') :
    InStep c' ∧ c'.outstanding = c.outstanding ∧ c'.sent = c.sent := by
  rcases kind with rfl | rfl
  · have counted := before.counted.leave taken
    obtain ⟨-, left⟩ := Option.ite_none_right_eq_some.mp taken
    obtain rfl := Option.some.inj left
    exact ⟨⟨counted, Phase.noConfusion, Phase.noConfusion, Phase.noConfusion, before.numbered,
      Phase.noConfusion, before.few⟩, rfl, rfl⟩
  · have counted := before.counted.step (e := .interrupt) trivial taken
    obtain ⟨-, stopped⟩ := Option.ite_none_right_eq_some.mp taken
    obtain rfl := Option.some.inj stopped
    refine ⟨⟨counted, Phase.noConfusion, ?_, Phase.noConfusion, before.numbered,
      Phase.noConfusion, before.few⟩, rfl, rfl⟩
    intro _ goesOn
    simp [Client.goesOn] at goesOn

end InStep

end ZmqPractices.LazyPirate
