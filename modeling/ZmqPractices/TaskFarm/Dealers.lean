import ZmqPractices.Lib.Emulation
import ZmqPractices.TaskFarm.Rtdealer
import ZmqPractices.TaskFarm.Termination

/-!
A worker with a DEALER socket passes for one with a REQ socket (`rtdealer.cpp`).

The worker writes the envelope by hand, and reads it by hand. `InMessage` and `AtCall` say
where in a message a worker and the broker are before each of their calls. What is seen of the
farm is then the farm of `rtreq.cpp`, in all its runs, and everybody is fired once here too.
-/

namespace ZmqPractices.TaskFarm

open Czmq Lib
open Peering (reqSend reqRecv)

/-! ### Half a message -/

/-- What a worker holds of a message before each of its calls. -/
inductive InMessage : Dealer → Prop
  | ready {asked : Nat} {received : List Frame} : InMessage ⟨.ready, [], [], asked, received⟩
  | began {asked : Nat} {received : List Frame} : InMessage ⟨.began, [[]], [], asked, received⟩
  | waiting {asked : Nat} {received : List Frame} : InMessage ⟨.waiting, [], [], asked, received⟩
  | delimited {body : Frame} {asked : Nat} {received : List Frame} :
      InMessage ⟨.delimited, [], [body], asked, received⟩
  | completed {asked : Nat} {received : List Frame} :
      InMessage ⟨.completed, [], [], asked, received⟩

/-- What the broker holds of its two messages before each of its calls. -/
inductive AtCall : Call → Msg → Msg → Prop
  | identity : AtCall .identity [] []
  | address {worker envelope response : Frame} : AtCall (.address worker) [] [envelope, response]
  | envelope {worker envelope response : Frame} : AtCall .envelope [worker] [envelope, response]
  | response {worker response : Frame} : AtCall .response [worker] [response]
  | delimiter {worker : Frame} : AtCall .delimiter [worker] []
  | answer {worker : Frame} : AtCall .answer [worker, []] []
  | exited : AtCall .exited [] []

/-- Nobody is out of step with the parts of a message. -/
structure InStep (s : Rtdealer) : Prop where
  dealers : ∀ identity, InMessage (s.dealer identity)
  broker : AtCall s.call s.out s.parts

variable {identities : List Frame} {endTime : Int} {s s' : Rtdealer}

theorem InStep.set (inStep : InStep s) (identity : Frame) {d : Dealer} (inMessage : InMessage d)
    (net : Net Chan Msg) : InStep { s.setDealer identity d with net := net } where
  dealers other := by
    by_cases same : other = identity
    · subst same
      simpa only [Rtdealer.setDealer, Function.update_self] using inMessage
    · simpa only [Rtdealer.setDealer, Function.update_of_ne same] using inStep.dealers other
  broker := inStep.broker

/-! ### Steps of the workers -/

theorem asRtreq_set (s : Rtdealer) (identity : Frame) (d : Dealer) (net : Net Chan Msg) :
    { s.setDealer identity d with net := net }.asRtreq =
      { s.asRtreq.setWorker identity d.asRtreq with net := net } := by
  have workers : (fun other => (Function.update s.dealer identity d other).asRtreq) =
      Function.update (fun other => (s.dealer other).asRtreq) identity d.asRtreq := by
    funext other
    by_cases same : other = identity
    · subst same
      rw [Function.update_self, Function.update_self]
    · rw [Function.update_of_ne same, Function.update_of_ne same]
  simp only [Rtdealer.asRtreq, Rtdealer.setDealer, Farm.setWorker, workers]

/-- A step that nobody sees. -/
theorem asRtreq_hidden {identity : Frame} {d : Dealer}
    (same : d.asRtreq = (s.dealer identity).asRtreq) :
    { s.setDealer identity d with net := s.net }.asRtreq = s.asRtreq := by
  have still : s.asRtreq.setWorker identity d.asRtreq = s.asRtreq := by
    rw [Farm.setWorker, same]
    exact congrArg (fun worker => { s.asRtreq with worker := worker }) (Function.update_eq_self _ _)
  rw [asRtreq_set, still]
  rfl

theorem asRtreq_told (body : Frame) (asked : Nat) (received : List Frame) :
    (Dealer.mk (if streq (sRecv body) firedText then .completed else .ready) [] [] asked
        (sRecv body :: received)).asRtreq =
      (Worker.mk .waiting asked received).receive body := by
  unfold Worker.receive
  split
  · rename_i fired
    simp [Dealer.asRtreq, fired]
  · rename_i hired
    simp [Dealer.asRtreq, hired]

/-- What the worker reads first was sent to it as two parts. -/
theorem recv_down (counts : Counts identities s.asRtreq) {identity part : Frame} {parts : Msg}
    {net : Net Chan Msg}
    (got : recvPart [] (Net.recv (.down identity) s.net) s.net = some (part, parts, net)) :
    ∃ body, Net.recv (.down identity) s.net = some ([[], body], net) ∧ parts = [body] := by
  have taken := recvPart_nil.mp got
  have mem := counts.mem_of_down (Net.mem_of_recv taken)
  obtain ⟨-, body, -, -, same, -, -⟩ :=
    (counts.placed identity mem).of_down (Net.on_recv_self taken)
  obtain ⟨rfl, rfl⟩ := List.cons.inj same
  exact ⟨body, taken, rfl⟩

theorem workerTurn_follows (counts : Counts identities s.asRtreq) (inStep : InStep s)
    {identity : Frame} (mem : identity ∈ identities) (taken : workerTurn s identity = some s') :
    InStep s' ∧ (farm identities endTime).move s.asRtreq (s.seen (.worker identity)) =
      some s'.asRtreq := by
  have inMessage := inStep.dealers identity
  obtain ⟨d, is⟩ : ∃ d, s.dealer identity = d := ⟨_, rfl⟩
  rw [is] at inMessage
  cases inMessage with
  | ready =>
      simp only [workerTurn, is, Option.some.injEq] at taken
      subst taken
      refine ⟨inStep.set identity .began s.net, ?_⟩
      simp only [Rtdealer.seen, is, System.move, Option.some.injEq]
      exact (asRtreq_hidden (by rw [is]; rfl)).symm
  | began =>
      simp only [workerTurn, is, Option.some.injEq] at taken
      subst taken
      refine ⟨inStep.set identity .waiting _, ?_⟩
      rw [asRtreq_set]
      simp [Rtdealer.seen, is, System.move, farm, step, Rtdealer.asRtreq, Dealer.asRtreq, mem,
        reqSend]
  | waiting =>
      simp only [workerTurn, is] at taken
      obtain ⟨⟨part, parts, net⟩, got, rfl⟩ := Option.map_eq_some_iff.mp taken
      obtain ⟨body, received, rfl⟩ := recv_down counts got
      refine ⟨inStep.set identity .delimited net, ?_⟩
      rw [asRtreq_set]
      simp [Rtdealer.seen, is, System.move, farm, step, Rtdealer.asRtreq, Dealer.asRtreq, received,
        reqRecv, Farm.setWorker]
  | delimited =>
      simp only [workerTurn, is, recvPart, Option.map_some, Option.some.injEq] at taken
      subst taken
      refine ⟨inStep.set identity ?_ s.net, ?_⟩
      · split
        · exact .completed
        · exact .ready
      · simp only [Rtdealer.seen, is, System.move, Option.some.injEq]
        exact (asRtreq_hidden (by rw [is, asRtreq_told]; rfl)).symm
  | completed =>
      simp [workerTurn, is] at taken

/-! ### Steps of the broker -/

/-- What the broker reads first was sent to it as two parts, behind the identity. -/
theorem recv_up (counts : Counts identities s.asRtreq) {identity part : Frame} {parts : Msg}
    {net : Net Chan Msg}
    (got : recvPart [] ((Net.recv (.up identity) s.net).map fun (msg, net) =>
      (identity :: msg, net)) s.net = some (part, parts, net)) :
    Net.recv (.up identity) s.net = some (reqSend [hiBoss], net) ∧ part = identity ∧
      parts = reqSend [hiBoss] := by
  obtain ⟨⟨msg, rest⟩, taken, same⟩ := Option.map_eq_some_iff.mp (recvPart_nil.mp got)
  obtain ⟨parted, rfl⟩ := Prod.mk.inj same
  obtain ⟨rfl, rfl⟩ := List.cons.inj parted
  have mem := counts.mem_of_up (Net.mem_of_recv taken)
  obtain ⟨-, -, rfl, -, -⟩ := (counts.placed identity mem).of_up (Net.on_recv_self taken)
  exact ⟨taken, rfl, rfl⟩

theorem brokerRecv_follows (counts : Counts identities s.asRtreq) (inStep : InStep s)
    {identity : Frame} (taken : brokerRecv s identity = some s') :
    InStep s' ∧ (farm identities endTime).move s.asRtreq (s.seen (.recv identity)) =
      some s'.asRtreq := by
  obtain ⟨⟨part, parts, net⟩, got, call⟩ := Option.bind_eq_some_iff.mp taken
  have atCall := inStep.broker
  obtain ⟨dealer, callIs, out, held, workersFired, packets, told⟩ := s
  cases atCall with
  | identity =>
      obtain ⟨received, rfl, rfl⟩ := recv_up counts got
      simp only [Option.some.injEq] at call
      subst call
      refine ⟨⟨inStep.dealers, .address⟩, ?_⟩
      simp [Rtdealer.seen, System.move, farm, step, Rtdealer.asRtreq, Call.asRtreq, brokerRead,
        received, reqSend]
  | envelope =>
      simp only [recvPart, Option.some.injEq, Prod.mk.injEq] at got
      obtain ⟨rfl, rfl, rfl⟩ := got
      simp only [Option.some.injEq] at call
      subst call
      exact ⟨⟨inStep.dealers, .response⟩, rfl⟩
  | response =>
      simp only [recvPart, Option.some.injEq, Prod.mk.injEq] at got
      obtain ⟨rfl, rfl, rfl⟩ := got
      simp only [Option.some.injEq] at call
      subst call
      exact ⟨⟨inStep.dealers, .delimiter⟩, rfl⟩
  | address | delimiter | answer | exited => cases call

theorem brokerSendmore_follows (inStep : InStep s) (taken : brokerSendmore s = some s') :
    InStep s' ∧ s'.asRtreq = s.asRtreq := by
  have atCall := inStep.broker
  obtain ⟨dealer, call, out, held, workersFired, packets, told⟩ := s
  cases atCall with
  | address =>
      obtain rfl := Option.some.inj taken
      exact ⟨⟨inStep.dealers, .envelope⟩, rfl⟩
  | delimiter =>
      obtain rfl := Option.some.inj taken
      exact ⟨⟨inStep.dealers, .answer⟩, rfl⟩
  | identity | envelope | response | answer | exited => cases taken

/-- The message of the broker is whole when it is routed. -/
theorem asRtreq_route {worker : Frame} (out : s.out = [worker, []]) (text : Frame) (call : Call)
    (workersFired : Nat) :
    { s.route identities text with call := call, workersFired := workersFired }.asRtreq =
      { s.asRtreq.route identities worker text with
        broker := call.asRtreq []
        workersFired := workersFired } := by
  by_cases mem : worker ∈ identities
  · simp [Rtdealer.route, Farm.route, Rtdealer.asRtreq, out, mem]
  · simp [Rtdealer.route, Farm.route, Rtdealer.asRtreq, out, mem]

theorem inStep_route (inStep : InStep s) {worker : Frame} (out : s.out = [worker, []])
    (rest : s.parts = []) (text : Frame) {call : Call} (workersFired : Nat)
    (ends : AtCall call [] []) :
    InStep { s.route identities text with call := call, workersFired := workersFired } := by
  unfold Rtdealer.route
  rw [out]
  by_cases mem : worker ∈ identities
  · simp only [List.cons_append, mem, if_true]
    exact ⟨inStep.dealers, rest ▸ ends⟩
  · simp only [List.cons_append, mem, if_false]
    exact ⟨inStep.dealers, rest ▸ ends⟩

theorem brokerAnswer_follows (inStep : InStep s) {now : Int}
    (taken : brokerAnswer identities endTime s now = some s') :
    InStep s' ∧ (farm identities endTime).move s.asRtreq (s.seen (.answer now)) =
      some s'.asRtreq := by
  have atCall := inStep.broker
  obtain ⟨call, is⟩ : ∃ call, s.call = call := ⟨_, rfl⟩
  obtain ⟨out, held⟩ : ∃ out, s.out = out := ⟨_, rfl⟩
  obtain ⟨parts, left⟩ : ∃ parts, s.parts = parts := ⟨_, rfl⟩
  rw [is, held, left] at atCall
  cases atCall with
  | @answer worker =>
      have answering : s.asRtreq.broker = .answering worker := by
        simp [Rtdealer.asRtreq, Call.asRtreq, is, held]
      simp only [brokerAnswer, is] at taken
      simp only [Rtdealer.seen, System.move, farm, step, answering]
      split at taken
      · rename_i running
        obtain rfl := Option.some.inj taken
        refine ⟨inStep_route inStep held left workHarder _ .identity, ?_⟩
        rw [if_pos running, asRtreq_route held workHarder .identity]
        have uncounted : (s.route identities workHarder).workersFired = s.workersFired := by
          unfold Rtdealer.route
          split <;> [split <;> rfl; rfl]
        rw [uncounted]
        unfold Farm.route
        split <;> rfl
      · rename_i passed
        obtain rfl := Option.some.inj taken
        refine ⟨inStep_route inStep held left firedText _ ?_, ?_⟩
        · split
          · exact .exited
          · exact .identity
        · rw [if_neg passed, asRtreq_route held firedText]
          by_cases last : s.workersFired + 1 = identities.length
          · simp [Rtdealer.asRtreq, Call.asRtreq, last]
          · simp [Rtdealer.asRtreq, Call.asRtreq, last]
  | identity | address | envelope | response | delimiter | exited =>
      simp [brokerAnswer, is] at taken

/-! ### The farm that is seen -/

theorem turn_follows (counts : Counts identities s.asRtreq) (inStep : InStep s) {l : Turn}
    (taken : turn identities endTime s l = some s') :
    InStep s' ∧ (farm identities endTime).move s.asRtreq (s.seen l) = some s'.asRtreq := by
  cases l with
  | worker identity =>
      obtain ⟨mem, taken⟩ := Option.ite_none_right_eq_some.mp taken
      exact workerTurn_follows counts inStep mem taken
  | recv identity => exact brokerRecv_follows counts inStep taken
  | sendmore =>
      obtain ⟨inStep', hidden⟩ := brokerSendmore_follows inStep taken
      exact ⟨inStep', congrArg some hidden.symm⟩
  | answer now => exact brokerAnswer_follows inStep taken

/-- What is seen can be reached with REQ sockets, and nobody is out of step. -/
theorem inStep_of_reachable (nodup : identities.Nodup)
    (printable : ∀ identity ∈ identities, NulFree identity ∧ identity.length ≤ 255)
    (reach : Reachable (rtdealer identities endTime) s) :
    Reachable (farm identities endTime) s.asRtreq ∧ InStep s := by
  refine reach.invariant (fun s => Reachable (farm identities endTime) s.asRtreq ∧ InStep s)
    ⟨.start, fun _ => .ready, .identity⟩ ?_
  rintro s l s' ⟨seen, inStep⟩ taken
  have counts := counts_of_reachable nodup printable seen
  obtain ⟨inStep', moved⟩ := turn_follows counts inStep taken
  exact ⟨seen.move moved, inStep'⟩

/-- Whatever the farm that is seen does next, a call of the farm does or brings nearer. -/
theorem turn_answers (counts : Counts identities s.asRtreq) (inStep : InStep s) {k : Label}
    {t : Farm} (taken : step identities endTime s.asRtreq k = some t) :
    ∃ l s', turn identities endTime s l = some s' ∧
      (s.seen l = some k ∨ s.seen l = none ∧ s'.hidden k < s.hidden k) := by
  cases k with
  | ask identity =>
      obtain ⟨⟨mem, ready⟩, -⟩ := Option.ite_none_right_eq_some.mp taken
      have inMessage := inStep.dealers identity
      obtain ⟨d, is⟩ : ∃ d, s.dealer identity = d := ⟨_, rfl⟩
      have ready : d.asRtreq.phase = .ready := is ▸ ready
      rw [is] at inMessage
      refine ⟨.worker identity, ?_⟩
      rw [turn, if_pos mem]
      cases inMessage with
      | ready =>
          refine ⟨_, by rw [workerTurn, is], .inr ⟨by simp [Rtdealer.seen, is], ?_⟩⟩
          simp [Rtdealer.hidden, is, Rtdealer.setDealer]
      | began => exact ⟨_, by rw [workerTurn, is], .inl (by simp [Rtdealer.seen, is])⟩
      | @delimited body asked received =>
          have hired : ¬ streq (sRecv body) firedText := by
            intro fired
            simp [Dealer.asRtreq, Worker.receive, fired] at ready
          refine ⟨_, by rw [workerTurn, is]; rfl, .inr ⟨by simp [Rtdealer.seen, is], ?_⟩⟩
          simp [Rtdealer.hidden, is, Rtdealer.setDealer, hired]
      | waiting | completed => cases ready
  | receive identity =>
      obtain ⟨waiting, received⟩ := Option.ite_none_right_eq_some.mp taken
      obtain ⟨⟨msg, net⟩, received, -⟩ := Option.map_eq_some_iff.mp received
      have mem := counts.mem_of_down (Net.mem_of_recv received)
      obtain ⟨-, body, -, -, rfl, -, -⟩ :=
        (counts.placed identity mem).of_down (Net.on_recv_self received)
      have inMessage := inStep.dealers identity
      obtain ⟨d, is⟩ : ∃ d, s.dealer identity = d := ⟨_, rfl⟩
      have waiting : d.asRtreq.phase = .waiting := is ▸ waiting
      have received : Net.recv (.down identity) s.net = some ([[], body], net) := received
      rw [is] at inMessage
      refine ⟨.worker identity, ?_⟩
      rw [turn, if_pos mem]
      cases inMessage with
      | waiting =>
          exact ⟨_, by rw [workerTurn, is, received]; rfl, .inl (by simp [Rtdealer.seen, is])⟩
      | @delimited body' =>
          simp only [Dealer.asRtreq, Worker.receive] at waiting
          split at waiting <;> cases waiting
      | ready | began | completed => cases waiting
  | read identity =>
      obtain ⟨receiving, received⟩ := Option.ite_none_right_eq_some.mp taken
      obtain ⟨⟨msg, net⟩, received, -⟩ := Option.bind_eq_some_iff.mp received
      have received : Net.recv (.up identity) s.net = some (msg, net) := received
      have atCall := inStep.broker
      obtain ⟨dealer, call, out, parts, workersFired, packets, told⟩ := s
      refine ⟨.recv identity, ?_⟩
      cases atCall with
      | identity =>
          exact ⟨_, by
            simp only [turn, brokerRecv, received, Option.map_some, recvPart]
            rfl, .inl rfl⟩
      | address | envelope | response | delimiter | answer | exited => cases receiving
  | answer now =>
      have atCall := inStep.broker
      obtain ⟨dealer, call, out, parts, workersFired, packets, told⟩ := s
      cases atCall with
      | identity | exited => cases taken
      | address => exact ⟨.sendmore, _, rfl, .inr ⟨rfl, Nat.lt_succ_self _⟩⟩
      | envelope => exact ⟨.recv [], _, rfl, .inr ⟨rfl, Nat.lt_succ_self _⟩⟩
      | response => exact ⟨.recv [], _, rfl, .inr ⟨rfl, Nat.lt_succ_self _⟩⟩
      | delimiter => exact ⟨.sendmore, _, rfl, .inr ⟨rfl, Nat.lt_succ_self _⟩⟩
      | answer =>
          refine ⟨.answer now, ?_⟩
          simp only [turn, brokerAnswer]
          split
          · exact ⟨_, rfl, .inl rfl⟩
          · exact ⟨_, rfl, .inl rfl⟩

/-- The workers of `rtdealer.cpp` pass for those of `rtreq.cpp`. -/
theorem emulation (endTime : Int) (nodup : identities.Nodup)
    (printable : ∀ identity ∈ identities, NulFree identity ∧ identity.length ≤ 255) :
    Emulation (rtdealer identities endTime) (farm identities endTime) Rtdealer.asRtreq
      Rtdealer.seen Rtdealer.hidden where
  start := rfl
  follows s l s' reach taken := by
    obtain ⟨seen, inStep⟩ := inStep_of_reachable nodup printable reach
    exact (turn_follows (counts_of_reachable nodup printable seen) inStep taken).2
  answers s k t reach taken := by
    obtain ⟨seen, inStep⟩ := inStep_of_reachable nodup printable reach
    exact turn_answers (counts_of_reachable nodup printable seen) inStep taken

/-- **A DEALER that writes its envelope is a REQ.** For any number of workers with distinct
printable identities and any readings of the clock: what is seen of the runs of
`rtdealer.cpp`, part by part, are the runs of `rtreq.cpp`, all of them and no others; and such
a run leads to the same state there. -/
theorem rtdealer_runs (identities : List Frame) (endTime : Int) (nodup : identities.Nodup)
    (printable : ∀ identity ∈ identities, NulFree identity ∧ identity.length ≤ 255)
    (labels : List Label) (t : Farm) :
    (farm identities endTime).exec (farm identities endTime).start labels = some t ↔
      ∃ turns s,
        (rtdealer identities endTime).exec (rtdealer identities endTime).start turns = some s ∧
          (rtdealer identities endTime).shown Rtdealer.seen (rtdealer identities endTime).start
            turns = labels ∧ s.asRtreq = t :=
  (emulation endTime nodup printable).exec_iff

/-- Two workers, one of them half way through its answer when the other asks. -/
theorem rtdealer_runs_two : ∃ turns s,
    (rtdealer [[0x30], [0x31]] 5).exec (rtdealer [[0x30], [0x31]] 5).start turns = some s ∧
      (rtdealer [[0x30], [0x31]] 5).shown Rtdealer.seen (rtdealer [[0x30], [0x31]] 5).start turns =
        [.ask [0x30], .read [0x30], .answer 9, .receive [0x30], .ask [0x31], .read [0x31],
          .answer 9] ∧ s.call.asRtreq s.out = .exited := by
  have ran : ((farm [[0x30], [0x31]] 5).exec (farm [[0x30], [0x31]] 5).start
      [.ask [0x30], .read [0x30], .answer 9, .receive [0x30], .ask [0x31], .read [0x31],
        .answer 9]).map Farm.broker = some .exited := by decide
  obtain ⟨t, done, exited⟩ := Option.map_eq_some_iff.mp ran
  obtain ⟨turns, s, did, shown, rfl⟩ := (rtdealer_runs _ 5 (by decide) (by decide) _ t).mp done
  exact ⟨turns, s, did, shown, exited⟩

/-! ### The end -/

/-- A worker has completed when it has been told so. -/
theorem Placed.completed_iff {v : View} (placed : Placed v) :
    firedText ∈ v.worker.received ↔ v.worker.phase = .completed := by
  cases placed with
  | ready hired | asked hired | held hired | told hired =>
      exact iff_of_false hired Phase.noConfusion
  | completed hired => exact iff_of_true List.mem_cons_self rfl

theorem Dealer.asRtreq_asked (d : Dealer) : d.asRtreq.asked = d.asked := by
  unfold Dealer.asRtreq
  split <;> rfl

/-- A worker that has the first part of its answer has not been told anything yet. -/
theorem InMessage.fired {d : Dealer} (inMessage : InMessage d)
    (last : firedText ∉ d.asRtreq.received.tail)
    (completed : firedText ∈ d.asRtreq.received ↔ d.asRtreq.phase = .completed) :
    firedText ∉ d.received.tail ∧ (firedText ∈ d.received ↔ d.phase = .completed) := by
  cases inMessage with
  | ready | began | waiting =>
      exact ⟨last, iff_of_false (fun mem => Phase.noConfusion (completed.mp mem))
        DealerPhase.noConfusion⟩
  | delimited =>
      exact ⟨fun mem => last (List.mem_of_mem_tail mem), iff_of_false last DealerPhase.noConfusion⟩
  | completed => exact ⟨last, iff_of_true (completed.mpr rfl) rfl⟩

/-- **Everybody is fired once here too.** A worker reads "Fired!" at most once and nothing
after it, and has completed as soon as it has read it. When the broker has left its loop, every
worker has been sent exactly one "Fired!", as many answers as it has sent requests, no request
is on its way, and the broker has left no part of a message unsent or unread. -/
theorem dealers_fired_once (identities : List Frame) (endTime : Int) (nodup : identities.Nodup)
    (printable : ∀ identity ∈ identities, NulFree identity ∧ identity.length ≤ 255)
    {s : Rtdealer} (reach : Reachable (rtdealer identities endTime) s) :
    (∀ identity ∈ identities, firedText ∉ (s.dealer identity).received.tail ∧
      (firedText ∈ (s.dealer identity).received ↔ (s.dealer identity).phase = .completed)) ∧
    (s.call = .exited →
      (∀ identity ∈ identities, (s.told identity).count firedText = 1 ∧
        (s.dealer identity).asked = (s.told identity).length) ∧
      (∀ identity, Net.on (.up identity) s.net = []) ∧ s.out = [] ∧ s.parts = []) := by
  obtain ⟨seen, inStep⟩ := inStep_of_reachable nodup printable reach
  have counts := counts_of_reachable nodup printable seen
  refine ⟨fun identity mem => ?_, fun exited => ?_⟩
  · have placed := counts.placed identity mem
    exact (inStep.dealers identity).fired placed.fired_last placed.completed_iff
  · have left : s.asRtreq.broker = .exited := by
      rw [Rtdealer.asRtreq, exited]
      rfl
    obtain ⟨told, quiet⟩ := counts.at_exit left
    have atCall := inStep.broker
    rw [exited] at atCall
    refine ⟨fun identity mem => ?_, quiet, ?_⟩
    · obtain ⟨once, asked⟩ := told identity mem
      exact ⟨once, (Dealer.asRtreq_asked _).symm.trans asked⟩
    · generalize s.out = out, s.parts = parts at atCall
      cases atCall
      exact ⟨rfl, rfl⟩

/-- One worker, told to work harder once. -/
theorem dealers_fired_once_one : ∃ s, Reachable (rtdealer [[0x30]] 5) s ∧ s.call = .exited ∧
    (s.told [0x30]).count firedText = 1 ∧ (s.dealer [0x30]).asked = (s.told [0x30]).length ∧
      s.parts = [] := by
  have ran : ((rtdealer [[0x30]] 5).exec (rtdealer [[0x30]] 5).start
      [.worker [0x30], .worker [0x30], .recv [0x30], .sendmore, .recv [], .recv [], .sendmore,
        .answer 3, .worker [0x30], .worker [0x30], .worker [0x30], .worker [0x30], .recv [0x30],
        .sendmore, .recv [], .recv [], .sendmore, .answer 5]).map Rtdealer.call =
      some .exited := by decide
  obtain ⟨s, done, exited⟩ := Option.map_eq_some_iff.mp ran
  have reach := Reachable.start.exec done
  obtain ⟨told, -, -, parts⟩ :=
    (dealers_fired_once [[0x30]] 5 (by decide) (by decide) reach).2 exited
  obtain ⟨once, asked⟩ := told [0x30] (by decide)
  exact ⟨s, reach, exited, once, asked, parts⟩

end ZmqPractices.TaskFarm
