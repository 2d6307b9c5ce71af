import ZmqPractices.HelloWorld.System

/-!
What the clients of the hello-world server make of its replies.

Asked with a length that is too small, `ZMQ_RCVMORE` never says that there is more: a client
takes the second part of a reply for the first part of the next one, prints every other
message as invalid, and ends with half of its replies unread. Asked with the length of an
`int`, it prints every reply (`lines_when_done`). Either way nobody waits for ever: until all
clients are done, some step can be taken (`exchange_goes_on`).
-/

namespace ZmqPractices.HelloWorld

open Czmq Lib

/-! ### Where a client is -/

/-- The length is too small for an `int`. -/
def Short (optionLen : Nat) : Prop := optionLen < sizeofInt

instance (optionLen : Nat) : Decidable (Short optionLen) :=
  inferInstanceAs (Decidable (_ < _))

/-- What a client prints of its turn `i` of the loop over the replies. -/
def lineAt (optionLen i : Nat) : List Line :=
  if Short optionLen then if i % 2 = 1 then [.invalid i world] else []
  else [.receiving i world]

/-- What it has printed when it gets there. -/
def linesAt (optionLen i : Nat) : List Line := (List.range i).flatMap (lineAt optionLen)

/-- What is left of a reply then. -/
def partsAt (optionLen i : Nat) : Msg := if Short optionLen ∧ i % 2 = 1 then [world] else []

/-- How many replies it has begun to read. -/
def takenAt (optionLen i : Nat) : Nat := if Short optionLen then (i + 1) / 2 else i

theorem linesAt_succ (optionLen i : Nat) :
    linesAt optionLen (i + 1) = linesAt optionLen i ++ lineAt optionLen i := by
  simp [linesAt, List.range_succ]

/-- With a length that holds an `int`, it prints every reply. -/
theorem linesAt_long {optionLen : Nat} (long : ¬ Short optionLen) (n : Nat) :
    linesAt optionLen n = (List.range n).map fun i => .receiving i world := by
  induction n with
  | zero => rfl
  | succ n ih =>
      rw [linesAt_succ, ih, lineAt, if_neg long, List.range_succ, List.map_append]
      rfl

/-- With a smaller one, it prints something in every second turn. -/
theorem linesAt_short {optionLen : Nat} (short : Short optionLen) (n : Nat) :
    linesAt optionLen n =
      ((List.range n).filter fun i => i % 2 = 1).map fun i => .invalid i world := by
  induction n with
  | zero => rfl
  | succ n ih =>
      rw [linesAt_succ, ih, lineAt, if_pos short, List.range_succ, List.filter_append,
        List.map_append]
      by_cases odd : n % 2 = 1
      · simp [odd]
      · simp [odd]

theorem takenAt_le (optionLen i : Nat) : takenAt optionLen i ≤ i := by
  unfold takenAt
  split <;> omega

/-- The states of a client, turn by turn. -/
inductive InStep (reqNums optionLen : Nat) : Client → Prop
  | sending {i : Nat} (turn : i < reqNums) :
      InStep reqNums optionLen ⟨.sending i, [], [], [], 0⟩
  | half {i : Nat} (turn : i < reqNums) :
      InStep reqNums optionLen ⟨.sending i, [[]], [], [], 0⟩
  | reading {i : Nat} (turn : i < reqNums) : InStep reqNums optionLen
      ⟨.reading i, [], partsAt optionLen i, linesAt optionLen i, takenAt optionLen i⟩
  | read {i : Nat} (turn : i < reqNums) : InStep reqNums optionLen
      ⟨.more i, [], partsAt optionLen (i + 1), linesAt optionLen (i + 1), takenAt optionLen (i + 1)⟩
  | more {i : Nat} (turn : i < reqNums) (long : ¬ Short optionLen) : InStep reqNums optionLen
      ⟨.more i, [], [world], linesAt optionLen i, i + 1⟩
  | part {i : Nat} (turn : i < reqNums) (long : ¬ Short optionLen) : InStep reqNums optionLen
      ⟨.part i, [], [world], linesAt optionLen i, i + 1⟩
  | done : InStep reqNums optionLen ⟨.done, [], partsAt optionLen reqNums,
      linesAt optionLen reqNums, takenAt optionLen reqNums⟩

/-- How many requests a client has sent. -/
def Phase.sent (reqNums : Nat) : Phase → Nat
  | .sending i => i
  | _ => reqNums

variable {reqNums optionLen : Nat}

theorem InStep.nextReply {i : Nat} (turn : i ≤ reqNums) : InStep reqNums optionLen
    ⟨HelloWorld.nextReply reqNums i, [], partsAt optionLen i, linesAt optionLen i,
      takenAt optionLen i⟩ := by
  unfold HelloWorld.nextReply
  split
  · rename_i more
    exact .reading more
  · rename_i last
    obtain rfl : i = reqNums := Nat.le_antisymm turn (Nat.le_of_not_lt last)
    exact .done

theorem InStep.nextRequest (i : Nat) :
    InStep reqNums optionLen ⟨HelloWorld.nextRequest reqNums i, [], [], [], 0⟩ := by
  unfold HelloWorld.nextRequest
  split
  · rename_i more
    exact .sending more
  · have first : InStep reqNums optionLen ⟨HelloWorld.nextReply reqNums 0, [], partsAt optionLen 0,
        linesAt optionLen 0, takenAt optionLen 0⟩ := .nextReply (Nat.zero_le _)
    simpa [partsAt, linesAt, takenAt] using first

theorem sent_nextRequest {i : Nat} (turn : i ≤ reqNums) :
    (HelloWorld.nextRequest reqNums i).sent reqNums = i := by
  unfold HelloWorld.nextRequest HelloWorld.nextReply
  split
  · rfl
  · rename_i last
    have all : reqNums = i := Nat.le_antisymm (Nat.le_of_not_lt last) turn
    split
    · exact all
    · exact all

theorem sent_nextReply (i : Nat) : (HelloWorld.nextReply reqNums i).sent reqNums = reqNums := by
  unfold HelloWorld.nextReply
  split <;> rfl

/-! ### The exchange -/

variable {Node : Type} [DecidableEq Node] {s s' : State Node}

/-- How many requests of a client the server is at. -/
def State.served (s : State Node) (node : Node) : Nat :=
  if s.serving.map Prod.fst = some node then 1 else 0

/-- The requests of a client that are on their way, at the server, or answered with a reply that
is on its way. -/
def State.pending (s : State Node) (node : Node) : Nat :=
  (s.requests node).length + s.served node + (s.replies node).length

/-- Every client is in step, every message is a request or a reply, and each request that was
sent is pending or its reply has begun to be read. -/
structure Going (reqNums optionLen : Nat) (s : State Node) : Prop where
  client : ∀ node, InStep reqNums optionLen (s.client node)
  requests : ∀ node, ∀ msg ∈ s.requests node, msg = [[], hello]
  serving : ∀ node envelope, s.serving = some (node, envelope) → envelope = [[]]
  replies : ∀ node, ∀ msg ∈ s.replies node, msg = [[], world]
  balance : ∀ node, s.pending node + (s.client node).taken = (s.client node).phase.sent reqNums

/-- Nothing but what is at one client, on its way to it and from it, has changed. -/
structure Elsewhere (node : Node) (s s' : State Node) : Prop where
  client : ∀ other, other ≠ node → s'.client other = s.client other
  requests : ∀ other, other ≠ node → s'.requests other = s.requests other
  replies : ∀ other, other ≠ node → s'.replies other = s.replies other
  serving : ∀ other, other ≠ node →
    (s'.serving.map Prod.fst = some other ↔ s.serving.map Prod.fst = some other)

theorem Going.at (going : Going reqNums optionLen s) {node : Node} (elsewhere : Elsewhere node s s')
    (client : InStep reqNums optionLen (s'.client node))
    (requests : ∀ msg ∈ s'.requests node, msg = [[], hello])
    (serving : ∀ node envelope, s'.serving = some (node, envelope) → envelope = [[]])
    (replies : ∀ msg ∈ s'.replies node, msg = [[], world])
    (balance : s'.pending node + (s'.client node).taken = (s'.client node).phase.sent reqNums) :
    Going reqNums optionLen s' where
  client other := by
    by_cases here : other = node
    · exact here ▸ client
    · exact elsewhere.client other here ▸ going.client other
  requests other := by
    by_cases here : other = node
    · exact here ▸ requests
    · exact elsewhere.requests other here ▸ going.requests other
  serving := serving
  replies other := by
    by_cases here : other = node
    · exact here ▸ replies
    · exact elsewhere.replies other here ▸ going.replies other
  balance other := by
    by_cases here : other = node
    · exact here ▸ balance
    · have same : s'.pending other = s.pending other := by
        simp only [State.pending, State.served, elsewhere.requests other here,
          elsewhere.replies other here, elsewhere.serving other here]
      rw [same, elsewhere.client other here]
      exact going.balance other

/-- A step of a client that sends and receives no message. -/
theorem Going.setClient (going : Going reqNums optionLen s) {node : Node} {c : Client}
    (inStep : InStep reqNums optionLen c) (taken : c.taken = (s.client node).taken)
    (sent : c.phase.sent reqNums = (s.client node).phase.sent reqNums) :
    Going reqNums optionLen (s.setClient node c) := by
  have now : (s.setClient node c).client node = c := Function.update_self ..
  refine going.at ⟨fun _ other => Function.update_of_ne other .., fun _ _ => rfl, fun _ _ => rfl,
    fun _ _ => Iff.rfl⟩ ?_ (going.requests node) going.serving (going.replies node) ?_
  · rw [now]
    exact inStep
  · rw [now, taken, sent]
    exact going.balance node

/-! ### The client's steps -/

theorem Going.sendmore (going : Going reqNums optionLen s) {node : Node}
    (taken : step reqNums optionLen s (.sendmore node) = some s') :
    Going reqNums optionLen s' := by
  have inStep := going.client node
  obtain ⟨c, is⟩ : ∃ c, s.client node = c := ⟨_, rfl⟩
  rw [is] at inStep
  cases inStep with
  | sending turn =>
      simp only [step, is, Option.some.injEq] at taken
      subst taken
      exact going.setClient (.half turn) (by rw [is]) (by rw [is])
  | half | reading | read | more | part | done => simp [step, is] at taken

theorem Going.send (going : Going reqNums optionLen s) {node : Node}
    (taken : step reqNums optionLen s (.send node) = some s') : Going reqNums optionLen s' := by
  have inStep := going.client node
  have balance := going.balance node
  obtain ⟨c, is⟩ : ∃ c, s.client node = c := ⟨_, rfl⟩
  rw [is] at inStep balance
  cases inStep with
  | @half i turn =>
      simp only [step, is, Option.some.injEq] at taken
      have server : s'.served node = s.served node := taken ▸ rfl
      subst taken
      refine going.at ⟨?_, ?_, fun _ _ => rfl, fun _ _ => Iff.rfl⟩ ?_ ?_ going.serving
        (going.replies node) ?_
      · exact fun other elsewhere => Function.update_of_ne elsewhere ..
      · exact fun other elsewhere => Function.update_of_ne elsewhere ..
      · simp only [State.setClient, Function.update_self]
        exact .nextRequest (i + 1)
      · intro msg mem
        simp only [Function.update_self] at mem
        rcases List.mem_append.mp mem with old | new
        · exact going.requests node msg old
        · exact List.mem_singleton.mp new
      · rw [State.pending, server]
        simp only [State.setClient, Function.update_self, List.length_append,
          List.length_singleton, sent_nextRequest turn]
        simp only [State.pending, Phase.sent] at balance
        omega
  | sending | reading | read | more | part | done => simp [step, is] at taken

/-- The look at `ZMQ_RCVMORE`. -/
theorem Going.rcvmore (going : Going reqNums optionLen s) {node : Node}
    (taken : step reqNums optionLen s (.rcvmore node) = some s') : Going reqNums optionLen s' := by
  have inStep := going.client node
  obtain ⟨c, is⟩ : ∃ c, s.client node = c := ⟨_, rfl⟩
  rw [is] at inStep
  cases inStep with
  | @read i turn =>
      have last : zmqGetsockoptRcvmore optionLen (partsAt optionLen (i + 1)) 0 = 0 := by
        unfold zmqGetsockoptRcvmore partsAt Short
        split
        · rfl
        · rename_i long
          simp [long]
      simp only [step, is, last, if_true, Option.some.injEq] at taken
      subst taken
      exact going.setClient (.nextReply turn) (by rw [is]) (by rw [is]; exact sent_nextReply _)
  | @more i turn long =>
      have more : zmqGetsockoptRcvmore optionLen [world] 0 = 1 := by
        have long : ¬ optionLen < sizeofInt := long
        rw [zmqGetsockoptRcvmore, if_neg long]
        rfl
      simp only [step, is, more, Nat.one_ne_zero, if_false, Option.some.injEq] at taken
      subst taken
      exact going.setClient (.part turn long) (by rw [is]) (by rw [is]; rfl)
  | sending | half | reading | part | done => simp [step, is] at taken

/-! ### Reading -/

/-- A client reads on in a reply. -/
theorem InStep.readOn {c c' : Client} {part : Frame} {parts : Msg}
    (inStep : InStep reqNums optionLen c) (left : c.parts = part :: parts)
    (read : c.read part parts false = some c') :
    InStep reqNums optionLen c' ∧ c'.taken = c.taken ∧
      c'.phase.sent reqNums = c.phase.sent reqNums := by
  cases inStep with
  | sending | half | read | more | done => cases read
  | @reading i turn =>
      -- a part is left only where the client has not seen that there is more
      by_cases odd : Short optionLen ∧ i % 2 = 1
      · have left : [world] = part :: parts := by
          simpa only [partsAt, if_pos odd] using left
        obtain ⟨rfl, rfl⟩ := List.cons.inj left
        obtain rfl := Option.some.inj read
        have nothing : partsAt optionLen (i + 1) = [] := if_neg fun both => by omega
        have lines : linesAt optionLen (i + 1) =
            linesAt optionLen i ++ [.invalid i (zframeStrdup world)] := by
          rw [linesAt_succ, lineAt, if_pos odd.1, if_pos odd.2]
          rfl
        have taken : takenAt optionLen (i + 1) = takenAt optionLen i := by
          rw [takenAt, takenAt, if_pos odd.1, if_pos odd.1]
          omega
        refine ⟨?_, rfl, rfl⟩
        have next : InStep reqNums optionLen ⟨.more i, [], partsAt optionLen (i + 1),
          linesAt optionLen (i + 1), takenAt optionLen (i + 1)⟩ := .read turn
        rw [nothing, lines, taken] at next
        exact next
      · rw [partsAt, if_neg odd] at left
        cases left
  | @part i turn long =>
      obtain ⟨rfl, rfl⟩ := List.cons.inj left
      obtain rfl := Option.some.inj read
      have nothing : partsAt optionLen (i + 1) = [] := if_neg fun both => long both.1
      have lines : linesAt optionLen (i + 1) =
          linesAt optionLen i ++ [.receiving i (zframeStrdup world)] := by
        rw [linesAt_succ, lineAt, if_neg long]
        rfl
      have taken : takenAt optionLen (i + 1) = i + 1 := if_neg long
      refine ⟨?_, rfl, rfl⟩
      have next : InStep reqNums optionLen ⟨.more i, [], partsAt optionLen (i + 1),
        linesAt optionLen (i + 1), takenAt optionLen (i + 1)⟩ := .read turn
      rw [nothing, lines, taken] at next
      exact next

/-- A client begins to read a reply. -/
theorem InStep.readNew {c c' : Client} (inStep : InStep reqNums optionLen c) (left : c.parts = [])
    (read : c.read [] [world] true = some c') :
    InStep reqNums optionLen c' ∧ c'.taken = c.taken + 1 ∧
      c'.phase.sent reqNums = c.phase.sent reqNums := by
  cases inStep with
  | sending | half | read | more | done => cases read
  | part => cases left
  | @reading i turn =>
      obtain rfl := Option.some.inj read
      refine ⟨?_, rfl, rfl⟩
      by_cases short : Short optionLen
      · have even : ¬ i % 2 = 1 := by
          intro odd
          rw [partsAt, if_pos ⟨short, odd⟩] at left
          cases left
        have parts : partsAt optionLen (i + 1) = [world] := if_pos ⟨short, by omega⟩
        have lines : linesAt optionLen (i + 1) = linesAt optionLen i := by
          rw [linesAt_succ, lineAt, if_pos short, if_neg even, List.append_nil]
        have taken : takenAt optionLen (i + 1) = takenAt optionLen i + 1 := by
          rw [takenAt, takenAt, if_pos short, if_pos short]
          omega
        have next : InStep reqNums optionLen ⟨.more i, [], partsAt optionLen (i + 1),
          linesAt optionLen (i + 1), takenAt optionLen (i + 1)⟩ := .read turn
        rw [parts, lines, taken] at next
        exact next
      · have taken : takenAt optionLen i = i := if_neg short
        have next : InStep reqNums optionLen ⟨.more i, [], [world], linesAt optionLen i, i + 1⟩ :=
          .more turn short
        rw [taken]
        exact next

theorem Going.recv (going : Going reqNums optionLen s) {node : Node}
    (taken : step reqNums optionLen s (.recv node) = some s') : Going reqNums optionLen s' := by
  have inStep := going.client node
  have balance := going.balance node
  obtain ⟨⟨part, parts, replies⟩, got, taken⟩ := Option.bind_eq_some_iff.mp taken
  obtain ⟨c, read, result⟩ := Option.map_eq_some_iff.mp taken
  have now : s'.client node = c := by
    rw [← result]
    exact Function.update_self ..
  have held : s'.replies node = replies := by
    rw [← result]
    exact Function.update_self ..
  have requests : s'.requests = s.requests := result ▸ rfl
  have server : s'.serving = s.serving := result ▸ rfl
  have served : s'.served node = s.served node := by rw [State.served, State.served, server]
  have elsewhere : Elsewhere node s s' := by
    rw [← result]
    exact ⟨fun _ other => Function.update_of_ne other .., fun _ _ => rfl,
      fun _ other => Function.update_of_ne other .., fun _ _ => Iff.rfl⟩
  cases left : (s.client node).parts with
  | cons first rest =>
      rw [left] at got read
      obtain ⟨rfl, rfl, rfl⟩ : first = part ∧ rest = parts ∧ s.replies node = replies := by
        simpa using got
      obtain ⟨inStep', same, sent⟩ := inStep.readOn left read
      refine going.at elsewhere (now ▸ inStep') (requests ▸ going.requests node)
        (server ▸ going.serving) (held ▸ going.replies node) ?_
      rw [now, same, sent, ← balance, State.pending, State.pending, held, requests, served]
  | nil =>
      rw [left] at got read
      have next := recvPart_nil.mp got
      cases waiting : s.replies node with
      | nil =>
          rw [waiting] at next
          cases next
      | cons msg msgs =>
          rw [waiting] at next
          obtain ⟨is, rfl⟩ := Prod.mk.inj (Option.some.inj next)
          have reply := going.replies node msg (waiting ▸ List.mem_cons_self)
          obtain ⟨rfl, rfl⟩ := List.cons.inj (is.symm.trans reply)
          obtain ⟨inStep', more, sent⟩ := inStep.readNew left read
          refine going.at elsewhere (now ▸ inStep') (requests ▸ going.requests node)
            (server ▸ going.serving) ?_ ?_
          · rw [held]
            exact fun msg mem => going.replies node msg (waiting ▸ List.mem_cons_of_mem _ mem)
          · rw [now, more, sent, ← balance, State.pending, State.pending, held, requests, served,
              waiting, List.length_cons]
            omega

/-! ### The server's steps -/

theorem Going.serverRecv (going : Going reqNums optionLen s) {node : Node}
    (taken : step reqNums optionLen s (.serverRecv node) = some s') :
    Going reqNums optionLen s' := by
  have balance := going.balance node
  cases free : s.serving with
  | some busy => simp [step, free] at taken
  | none =>
      cases waiting : s.requests node with
      | nil => simp [step, free, waiting] at taken
      | cons msg msgs =>
          have request := going.requests node msg (waiting ▸ List.mem_cons_self)
          subst request
          have opened : openRequest [[], hello] = some ([[]], [hello]) := by decide
          simp only [step, free, waiting, opened, Option.some.injEq] at taken
          have before : s.served node = 0 := by simp [State.served, free]
          have after : s'.served node = 1 := by simp [State.served, ← taken]
          have requests : s'.requests node = msgs := taken ▸ Function.update_self ..
          have client : s'.client = s.client := taken ▸ rfl
          have replies : s'.replies = s.replies := taken ▸ rfl
          refine going.at ⟨fun _ _ => by rw [client], ?_, fun _ _ => by rw [replies], ?_⟩
            (client ▸ going.client node) ?_ ?_ (replies ▸ going.replies node) ?_
          · intro other elsewhere
            exact taken ▸ Function.update_of_ne elsewhere ..
          · intro other elsewhere
            simp [← taken, free, Ne.symm elsewhere]
          · rw [requests]
            exact fun msg mem => going.requests node msg (waiting ▸ List.mem_cons_of_mem _ mem)
          · intro other envelope busy
            rw [← taken] at busy
            cases busy
            rfl
          · rw [State.pending, before, waiting, List.length_cons] at balance
            rw [State.pending, requests, after, client, replies]
            omega

theorem Going.serverSend (going : Going reqNums optionLen s)
    (taken : step reqNums optionLen s .serverSend = some s') : Going reqNums optionLen s' := by
  obtain ⟨⟨node, envelope⟩, busy, result⟩ := Option.map_eq_some_iff.mp taken
  have balance := going.balance node
  obtain rfl := going.serving node envelope busy
  have before : s.served node = 1 := by simp [State.served, busy]
  have after : s'.served node = 0 := by simp [State.served, ← result]
  have replies : s'.replies node = s.replies node ++ [[[], world]] := by
    rw [← result]
    exact Function.update_self ..
  have client : s'.client = s.client := result ▸ rfl
  have requests : s'.requests = s.requests := result ▸ rfl
  refine going.at ⟨fun _ _ => by rw [client], fun _ _ => by rw [requests], ?_, ?_⟩
    (client ▸ going.client node) (requests ▸ going.requests node) ?_ ?_ ?_
  · intro other elsewhere
    exact result ▸ Function.update_of_ne elsewhere ..
  · intro other elsewhere
    simp [← result, busy, Ne.symm elsewhere]
  · intro other envelope idle
    rw [← result] at idle
    cases idle
  · intro msg mem
    rw [replies] at mem
    rcases List.mem_append.mp mem with old | new
    · exact going.replies node msg old
    · exact List.mem_singleton.mp new
  · rw [State.pending, before] at balance
    rw [State.pending, requests, after, client, replies, List.length_append, List.length_singleton]
    omega

/-! ### Runs -/

theorem Going.step (going : Going reqNums optionLen s) {l : Label Node}
    (taken : HelloWorld.step reqNums optionLen s l = some s') : Going reqNums optionLen s' := by
  cases l with
  | sendmore node => exact going.sendmore taken
  | send node => exact going.send taken
  | recv node => exact going.recv taken
  | rcvmore node => exact going.rcvmore taken
  | serverRecv node => exact going.serverRecv taken
  | serverSend => exact going.serverSend taken

theorem going_of_reachable (reach : Reachable (exchange reqNums optionLen Node) s) :
    Going reqNums optionLen s := by
  refine reach.invariant (Going reqNums optionLen) ?_ fun _ _ _ going taken => going.step taken
  refine ⟨fun _ => .nextRequest 0, ?_, ?_, ?_, ?_⟩
  · intro node msg mem
    cases mem
  · intro node envelope busy
    cases busy
  · intro node msg mem
    cases mem
  · intro node
    exact (sent_nextRequest (Nat.zero_le reqNums)).symm

/-- A client that is not done can take a step, or waits for the server to answer. -/
theorem Going.waits (going : Going reqNums optionLen s) {node : Node}
    (busy : (s.client node).phase ≠ .done) :
    (∃ l, (HelloWorld.step reqNums optionLen s l).isSome) ∨
      0 < (s.requests node).length + s.served node := by
  have inStep := going.client node
  have balance := going.balance node
  obtain ⟨c, is⟩ : ∃ c, s.client node = c := ⟨_, rfl⟩
  rw [is] at inStep balance busy
  cases inStep with
  | sending => exact .inl ⟨.sendmore node, by simp only [HelloWorld.step, is, Option.isSome_some]⟩
  | half => exact .inl ⟨.send node, by simp only [HelloWorld.step, is, Option.isSome_some]⟩
  | read | more =>
      exact .inl ⟨.rcvmore node, by simp only [HelloWorld.step, is, Option.isSome_some]⟩
  | part => exact .inl ⟨.recv node, by simp [HelloWorld.step, is, Client.read]⟩
  | @reading i turn =>
      cases left : partsAt optionLen i with
      | cons part parts =>
          exact .inl ⟨.recv node, by simp [HelloWorld.step, is, left, Client.read]⟩
      | nil =>
          cases waiting : s.replies node with
          | cons msg msgs =>
              have reply := going.replies node msg (waiting ▸ List.mem_cons_self)
              subst reply
              exact .inl ⟨.recv node, by
                simp [HelloWorld.step, is, left, waiting, recvPart, Client.read]⟩
          | nil =>
              refine .inr ?_
              rw [State.pending, waiting] at balance
              have few := takenAt_le optionLen i
              simp only [List.length_nil, Phase.sent] at balance
              omega
  | done => exact absurd rfl busy

/-- Until all clients are done, somebody can take a step. -/
theorem Going.live (going : Going reqNums optionLen s) {node : Node}
    (busy : (s.client node).phase ≠ .done) :
    ∃ l, (HelloWorld.step reqNums optionLen s l).isSome := by
  rcases going.waits busy with moves | waits
  · exact moves
  · cases serving : s.serving with
    | some at' =>
        exact ⟨.serverSend, by simp only [HelloWorld.step, serving, Option.map_some,
          Option.isSome_some]⟩
    | none =>
        have idle : s.served node = 0 := by simp [State.served, serving]
        cases waiting : s.requests node with
        | nil =>
            rw [waiting, idle] at waits
            exact absurd waits (Nat.lt_irrefl 0)
        | cons msg msgs =>
            refine ⟨.serverRecv node, ?_⟩
            simp only [HelloWorld.step, serving, waiting]
            split
            · rfl
            · rfl

/-- What a client has printed is the beginning of what it prints in the end. -/
theorem InStep.lines {c : Client} (inStep : InStep reqNums optionLen c) :
    c.lines <+: linesAt optionLen reqNums := by
  have early {i : Nat} (turn : i ≤ reqNums) :
      linesAt optionLen i <+: linesAt optionLen reqNums := by
    obtain ⟨more, rfl⟩ := Nat.exists_eq_add_of_le turn
    rw [linesAt, linesAt, List.range_add, List.flatMap_append]
    exact List.prefix_append _ _
  cases inStep with
  | sending | half => exact List.nil_prefix
  | reading turn | more turn | part turn => exact early turn.le
  | read turn => exact early turn
  | done => exact List.prefix_rfl

/-- **What the clients print.** In every run of the server with any number of clients, each
sending `reqNums` requests and asking for `ZMQ_RCVMORE` with the length `optionLen`: what a
client has printed is the beginning of `linesAt optionLen reqNums`, which it has printed when
it is done, and until all are done somebody can take a step. For a length that holds an `int`
these lines are all the replies; for a smaller one, as for the 0 of the code, there is none
among them, and every second message read is printed as an invalid one. -/
theorem clients_print (reach : Reachable (exchange reqNums optionLen Node) s) (node : Node) :
    (s.client node).lines <+: linesAt optionLen reqNums ∧
    ((s.client node).phase = .done → (s.client node).lines = linesAt optionLen reqNums) ∧
    ((s.client node).phase ≠ .done →
      ∃ l, ((exchange reqNums optionLen Node).step s l).isSome) ∧
    linesAt optionLen reqNums =
      if sizeofInt ≤ optionLen then (List.range reqNums).map fun i => .receiving i world
      else ((List.range reqNums).filter fun i => i % 2 = 1).map fun i => .invalid i world := by
  have going := going_of_reachable reach
  refine ⟨(going.client node).lines, ?_, going.live, ?_⟩
  · intro done
    have inStep := going.client node
    obtain ⟨c, is⟩ : ∃ c, s.client node = c := ⟨_, rfl⟩
    rw [is] at inStep done ⊢
    cases inStep with
    | done => rfl
    | sending | half | reading | read | more | part => cases done
  · by_cases long : sizeofInt ≤ optionLen
    · rw [if_pos long]
      exact linesAt_long (Nat.not_lt.mpr long) reqNums
    · rw [if_neg long]
      exact linesAt_short (Nat.lt_of_not_le long) reqNums

/-- The code's three requests and length of 0, with two clients: one is done, and has printed
the second part of its first reply. -/
theorem clients_print_two : ∃ s, Reachable (exchange 3 0 Bool) s ∧
    (s.client true).phase = .done ∧ (s.client true).lines = [.invalid 1 world] := by
  have ran : ((exchange 3 0 Bool).exec (exchange 3 0 Bool).start
      [.sendmore true, .sendmore false, .send false, .send true, .sendmore true, .send true,
        .sendmore true, .send true, .serverRecv true, .serverSend, .serverRecv false, .serverSend,
        .recv true, .rcvmore true, .recv true, .rcvmore true, .serverRecv true, .serverSend,
        .recv true, .rcvmore true]).map (fun s => (s.client true).phase) = some .done := by decide
  obtain ⟨s, ended, done⟩ := Option.map_eq_some_iff.mp ran
  have reach := Reachable.start.exec ended
  have lines : linesAt 0 3 = [.invalid 1 world] := by decide
  exact ⟨s, reach, done, lines ▸ (clients_print reach true).2.1 done⟩

end ZmqPractices.HelloWorld
