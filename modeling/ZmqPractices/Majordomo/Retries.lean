import ZmqPractices.Majordomo.Client

/-!
The retries of a call (`mdcliapi.c`).

The loop of `mdcli_send` runs while its counter is not zero, and a timeout decrements the
counter and tests it again. `attempts` is what the turns of a call do, one entry for each
that sends and polls. `retries_iff` compares them with the number of retries that was
set: a negative one is never met on the way down, and the first attempt of a call on a
socket that still awaits a reply sends nothing.
-/

namespace ZmqPractices.Majordomo

open Czmq Lib

/-- A turn that sends and polls. -/
structure Attempt where
  socket : Nat
  sent : List Transmission
  poll : Poll
deriving DecidableEq, Repr

/-- The attempts of the loop of `mdcli_send`. -/
def attempts (call : Nat) (request : Msg) : List Turn → Int → Mdcli → List Attempt
  | [], _, _ => []
  | .signalled :: _, _, _ => []
  | .polled poll :: turns, left, self =>
      if left = 0 then []
      else
        let (sending, sent) := self.transmit call request
        ⟨self.socket, sent, poll⟩ ::
          if poll = .timeout ∧ left - 1 ≠ 0 then
            attempts call request turns (left - 1) (sMdcliConnectToBroker sending)
          else []

/-- The attempts of a call. -/
def mdcliAttempts (self : Mdcli) (call : Nat) (service : Frame) (request : Msg)
    (turns : List Turn) : List Attempt :=
  attempts call (mdcliRequest service request) turns self.retries self

/-- The interrupt flag was seen after these attempts, or one of their polls was
interrupted. -/
def Interrupted (turns : List Turn) (tried : List Attempt) : Prop :=
  turns[tried.length]? = some .signalled ∨ ∃ a ∈ tried, a.poll = .interrupted

/-- How a loop with `left` retries should go: it ends after at most that many attempts, each
on a socket of its own, and gives up when it is interrupted or when all of them timed out.
On a socket that awaits nothing, each attempt sends one copy of the request. -/
structure Tries (call : Nat) (request : Msg) (turns : List Turn) (left : Int) (client : Mdcli)
    (out : Outcome) (tried : List Attempt) : Prop where
  sent : out.sent = tried.flatMap Attempt.sent
  bounded : tried.length ≤ left
  ends : out.result = .pending → turns.length < left
  fresh : tried.map Attempt.socket = List.range' client.socket tried.length
  copies : client.awaiting = none → ∀ a ∈ tried, a.sent = [⟨a.socket, call, request⟩]
  null : out.result = .null →
    Interrupted turns tried ∨ tried.length = left ∧ ∀ a ∈ tried, a.poll = .timeout

section

variable {call : Nat} {service : Frame} {request : Msg}

theorem attempts_last (poll : Poll) (turns : List Turn) {left : Int} (self : Mdcli)
    (polls : left ≠ 0) (last : poll = .timeout → left - 1 = 0) :
    attempts call request (.polled poll :: turns) left self =
      [⟨self.socket, (self.transmit call request).2, poll⟩] := by
  simp only [attempts, polls, if_false]
  rw [if_neg fun again => again.2 (last again.1)]

theorem attempts_again (turns : List Turn) {left : Int} (self : Mdcli) (polls : left ≠ 0)
    (again : left - 1 ≠ 0) :
    attempts call request (.polled .timeout :: turns) left self =
      ⟨self.socket, (self.transmit call request).2, .timeout⟩ ::
        attempts call request turns (left - 1) (sMdcliConnectToBroker self) := by
  obtain ⟨retries, socket, awaiting⟩ := self
  simp only [attempts, polls, if_false]
  rw [if_pos ⟨trivial, again⟩]
  cases awaiting <;> rfl

/-- A socket that awaits nothing sends the request. -/
theorem transmit_sent {self : Mdcli} (free : self.awaiting = none) :
    (self.transmit call request).2 = [⟨self.socket, call, request⟩] := by
  simp only [Mdcli.transmit, free]

/-- No attempt at all. -/
theorem Tries.none {turns : List Turn} {left : Int} {self : Mdcli} {result : Result}
    (counts : 0 ≤ left) (ends : result = .pending → turns.length < left)
    (null : result = .null → turns.head? = some .signalled ∨ left = 0) :
    Tries call request turns left self ⟨self, result, []⟩ [] where
  sent := rfl
  bounded := counts
  ends := ends
  fresh := rfl
  copies _ _ mem := nomatch mem
  null gave_up := by
    rcases null gave_up with signalled | none_left
    · exact .inl (.inl (List.head?_eq_getElem? ▸ signalled))
    · exact .inr ⟨none_left.symm, fun _ mem => nomatch mem⟩

/-- One attempt that is the last one. -/
theorem Tries.one {poll : Poll} {turns : List Turn} {left : Int} {self : Mdcli} {out : Outcome}
    (positive : 0 < left) (sent : out.sent = (self.transmit call request).2)
    (ended : out.result ≠ .pending)
    (null : out.result = .null → poll = .interrupted ∨ poll = .timeout ∧ left - 1 = 0) :
    Tries call request (.polled poll :: turns) left self out
      [⟨self.socket, (self.transmit call request).2, poll⟩] where
  sent := by simp [sent]
  bounded := positive
  ends pending := absurd pending ended
  fresh := rfl
  copies free a mem := by
    obtain rfl := List.mem_singleton.mp mem
    exact transmit_sent free
  null gave_up := by
    rcases null gave_up with rfl | ⟨rfl, last⟩
    · exact .inl (.inr ⟨_, List.mem_singleton_self _, rfl⟩)
    · exact .inr ⟨by simp; omega, by simp⟩

/-- An attempt that timed out, before the others. -/
theorem Tries.again {turns : List Turn} {left : Int} {self : Mdcli} {out : Outcome}
    {tried : List Attempt}
    (later : Tries call request turns (left - 1) (sMdcliConnectToBroker self) out tried) :
    Tries call request (.polled .timeout :: turns) left self
      { out with sent := (self.transmit call request).2 ++ out.sent }
      (⟨self.socket, (self.transmit call request).2, .timeout⟩ :: tried) where
  sent := by simp [later.sent]
  bounded := by
    have := later.bounded
    simp
    omega
  ends pending := by
    have := later.ends pending
    simp
    omega
  fresh := by
    simp only [List.map_cons, List.length_cons, List.range'_succ, later.fresh]
    rfl
  copies free a mem := by
    rcases List.mem_cons.mp mem with rfl | mem
    · exact transmit_sent free
    · exact later.copies rfl a mem
  null gave_up := by
    rcases later.null gave_up with signalled | ⟨all, timeouts⟩
    · rcases signalled with signalled | ⟨a, mem, interrupted⟩
      · exact .inl (.inl (by simpa using signalled))
      · exact .inl (.inr ⟨a, List.mem_cons_of_mem _ mem, interrupted⟩)
    · refine .inr ⟨by simp; omega, fun a mem => ?_⟩
      rcases List.mem_cons.mp mem with rfl | mem
      · rfl
      · exact timeouts a mem

/-- A loop that starts with no negative number of retries goes as it should. -/
theorem sendLoop_tries (turns : List Turn) {left : Int} (self : Mdcli) (counts : 0 ≤ left) :
    Tries call request turns left self (sendLoop call service request turns left self)
      (attempts call request turns left self) := by
  induction turns generalizing left self with
  | nil =>
      refine .none counts ?_ ?_
      · split
        · exact Result.noConfusion
        · rename_i some_left
          exact fun _ => by simp; omega
      · split
        · rename_i none_left
          exact fun _ => .inr none_left
        · exact Result.noConfusion
  | cons turn turns ih =>
      cases turn with
      | signalled => exact .none counts Result.noConfusion fun _ => .inl rfl
      | polled poll =>
          by_cases none_left : left = 0
          · simp only [sendLoop, attempts, none_left, if_true]
            exact .none (Int.le_refl 0) Result.noConfusion fun _ => .inr rfl
          cases poll with
          | reply msg =>
              rw [sendLoop_reply none_left,
                attempts_last (.reply msg) turns self none_left Poll.noConfusion]
              cases checkReply service msg with
              | none => exact .one (by omega) rfl Result.noConfusion Result.noConfusion
              | some body => exact .one (by omega) rfl Result.noConfusion Result.noConfusion
          | interrupted =>
              rw [sendLoop_interrupted none_left,
                attempts_last .interrupted turns self none_left Poll.noConfusion]
              exact .one (by omega) rfl Result.noConfusion fun _ => .inl rfl
          | timeout =>
              by_cases last : left - 1 = 0
              · rw [sendLoop_abandon none_left last,
                  attempts_last .timeout turns self none_left fun _ => last]
                exact .one (by omega) rfl Result.noConfusion fun _ => .inr ⟨rfl, last⟩
              · rw [sendLoop_timeout none_left last, attempts_again turns self none_left last]
                exact .again (ih _ (by omega))

/-! ### A call -/

/-- What a call should do with the retries that were set: end after at most that many
attempts, none if the number is negative, each on a fresh socket and with one copy of the
request, and return NULL only if it was interrupted or all of them timed out. -/
structure Retries (client : Mdcli) (call : Nat) (service : Frame) (request : Msg)
    (turns : List Turn) : Prop where
  bounded : (mdcliAttempts client call service request turns).length ≤ max 0 client.retries
  ends : (mdcliSend client call service request turns).result = .pending →
    turns.length < max 0 client.retries
  sent : (mdcliSend client call service request turns).sent =
    (mdcliAttempts client call service request turns).flatMap Attempt.sent
  copies : ∀ a ∈ mdcliAttempts client call service request turns,
    a.sent = [⟨a.socket, call, mdcliRequest service request⟩]
  fresh : ((mdcliAttempts client call service request turns).map Attempt.socket).Nodup
  null : (mdcliSend client call service request turns).result = .null →
    Interrupted turns (mdcliAttempts client call service request turns) ∨
      (mdcliAttempts client call service request turns).length = max 0 client.retries ∧
        ∀ a ∈ mdcliAttempts client call service request turns, a.poll = .timeout

/-- The call is interrupted before it begins, or makes no attempt, or the number of
retries is positive and its first attempt finds a socket that awaits no reply. -/
def CanTry (self : Mdcli) (turns : List Turn) : Prop :=
  turns.head? = some .signalled ∨ self.retries = 0 ∨
    0 < self.retries ∧ (turns = [] ∨ self.awaiting = none)

/-- A call that is interrupted before it begins, or is given no turn or no retry. -/
theorem mdcliAttempts_eq_nil {self : Mdcli} {turns : List Turn}
    (still : turns.head? = some .signalled ∨ self.retries = 0 ∨ turns = []) :
    mdcliAttempts self call service request turns = [] := by
  match turns with
  | [] => rfl
  | .signalled :: turns => rfl
  | .polled poll :: turns =>
      rcases still with signalled | none_left | empty
      · cases signalled
      · simp only [mdcliAttempts, attempts, none_left, if_true]
      · cases empty

theorem first_mem_mdcliAttempts (call : Nat) (service : Frame) (request : Msg) (poll : Poll)
    (turns : List Turn) {self : Mdcli} (polls : self.retries ≠ 0) :
    ⟨self.socket, (self.transmit call (mdcliRequest service request)).2, poll⟩ ∈
      mdcliAttempts self call service request (.polled poll :: turns) := by
  simp only [mdcliAttempts, attempts, polls, if_false]
  exact List.mem_cons_self

theorem Retries.of_tries {self : Mdcli} {turns : List Turn} (counts : 0 ≤ self.retries)
    (free : self.awaiting = none ∨ mdcliAttempts self call service request turns = []) :
    Retries self call service request turns := by
  have tries : Tries call (mdcliRequest service request) turns self.retries self
      (mdcliSend self call service request turns)
      (mdcliAttempts self call service request turns) :=
    sendLoop_tries turns self counts
  have most : max 0 self.retries = self.retries := Int.max_eq_right counts
  constructor
  · rw [most]
    exact tries.bounded
  · rw [most]
    exact tries.ends
  · exact tries.sent
  · rcases free with free | none
    · exact tries.copies free
    · simp [none]
  · rw [tries.fresh]
    exact List.nodup_range'
  · rw [most]
    exact tries.null

/-- **The retries of a call.** For every number of retries and all that the polls find, the
call does what it should exactly when it can try. -/
theorem retries_iff (self : Mdcli) (call : Nat) (service : Frame) (request : Msg)
    (turns : List Turn) : Retries self call service request turns ↔ CanTry self turns := by
  constructor
  · intro good
    match turns with
    | [] =>
        by_cases none_left : self.retries = 0
        · exact .inr (.inl none_left)
        have some_left := good.ends (if_neg none_left)
        rw [List.length_nil] at some_left
        exact .inr (.inr ⟨by omega, .inl rfl⟩)
    | .signalled :: turns => exact .inl rfl
    | .polled poll :: turns =>
        by_cases none_left : self.retries = 0
        · exact .inr (.inl none_left)
        have first := first_mem_mdcliAttempts call service request poll turns none_left
        have bounded := good.bounded
        have one := List.length_pos_of_mem first
        refine .inr (.inr ⟨by omega, .inr ?_⟩)
        have copy := good.copies _ first
        cases awaiting : self.awaiting with
        | none => rfl
        | some earlier => simp [Mdcli.transmit, awaiting] at copy
  · rintro (signalled | none_left | ⟨positive, free⟩)
    · obtain ⟨rest, rfl⟩ := List.head?_eq_some_iff.mp signalled
      exact ⟨Int.le_max_left 0 _, nofun, rfl, fun _ mem => (nomatch mem),
        List.nodup_nil, fun _ => .inl (.inl rfl)⟩
    · exact .of_tries (by omega) (.inr (mdcliAttempts_eq_nil (.inr (.inl none_left))))
    · refine .of_tries (by omega) (free.symm.imp_right fun empty => ?_)
      exact mdcliAttempts_eq_nil (.inr (.inr empty))

end

/-- With -1 retries two timeouts are two attempts, and the call goes on; and the call after
one that was abandoned sends nothing at its first attempt. -/
theorem retries_overrun :
    (mdcliSend (mdcliSetRetries mdcliNew (-1)) 0 [0x65] [[0x41]]
        [.polled .timeout, .polled .timeout]).result = .pending ∧
      (mdcliAttempts (mdcliSetRetries mdcliNew (-1)) 0 [0x65] [[0x41]]
        [.polled .timeout, .polled .timeout]).length = 2 ∧
      ¬ Retries (mdcliSetRetries mdcliNew (-1)) 0 [0x65] [[0x41]]
        [.polled .timeout, .polled .timeout] ∧
      (mdcliAttempts
        (mdcliSend (mdcliSetRetries mdcliNew 1) 0 [0x65] [[0x41]] [.polled .timeout]).session
        1 [0x65] [[0x42]] [.polled .timeout]).map Attempt.sent = [[]] := by
  refine ⟨by decide, by decide, fun good => ?_, by decide⟩
  exact absurd good.bounded (by decide)

end ZmqPractices.Majordomo
