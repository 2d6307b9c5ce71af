import ZmqPractices.Hello.System
import ZmqPractices.Lib.Progress
import ZmqPractices.Lib.Weight

/-!
How `hello.cpp` ends.

Until the client has all its replies nobody is told to quit. From then on at most one
message is on its way: a server that is told to quit, or one that says it is done. The
client's socket goes around the servers, and a server that was told to quit comes last in
its order, so each is told once, and the client leaves its loop when all have quit.
-/

namespace ZmqPractices.Hello

open Czmq Lib
open Peering (reqSend reqRecv)

/-! ### Texts -/

theorem recvBuf_of_nulFree {frame : Frame} (short : frame.length < 128) (nulFree : NulFree frame) :
    recvBuf frame = some frame := by
  rw [recvBuf, if_pos short, zframeStrdup_of_nulFree nulFree]

theorem recvBuf_requestMsg {t : Nat} (lt : t < requestNum) :
    recvBuf (requestMsg t) = some (requestMsg t) := by
  have short : (printed 10 t).length ≤ 1 :=
    (length_printed_le_iff (by decide) (by decide)).mpr (lt.trans (by decide))
  refine recvBuf_of_nulFree ?_ fun mem => ?_
  · rw [requestMsg, List.length_append]
    exact Nat.lt_of_le_of_lt (Nat.add_le_add_left short _) (by decide)
  · rcases List.mem_append.mp mem with mem | mem
    · exact absurd mem (by decide)
    · exact zero_not_mem_printed t mem

theorem recvBuf_replyMsg {seq : Nat} (lt : seq < serverNum) :
    recvBuf (replyMsg seq) = some (replyMsg seq) := by
  have short : (printed 10 seq).length ≤ 1 :=
    (length_printed_le_iff (by decide) (by decide)).mpr (lt.trans (by decide))
  refine recvBuf_of_nulFree ?_ fun mem => ?_
  · rw [replyMsg, List.length_append]
    exact Nat.lt_of_le_of_lt (Nat.add_le_add_left short _) (by decide)
  · rcases List.mem_append.mp mem with mem | mem
    · exact absurd mem (by decide)
    · exact zero_not_mem_printed seq mem

theorem serve_requestMsg (seq : Nat) {t : Nat} (lt : t < requestNum) :
    serve seq (requestMsg t) = some (replyMsg seq, false) := by
  have other : requestMsg t ≠ quitMsg := fun same =>
    absurd (congrArg List.head? same) (by simp [requestMsg, quitMsg])
  rw [serve, recvBuf_requestMsg lt, Option.map_some, if_neg other]

theorem serve_quitMsg (seq : Nat) : serve seq quitMsg = some (doneMsg, true) := rfl

theorem receive_replyMsg {c : Client} {seq : Nat} (lt : seq < serverNum)
    (more : c.replyCount < requestNum) :
    c.receive [[], replyMsg seq] =
      some { c with phase := .looping, replyCount := c.replyCount + 1 } := by
  rw [Client.receive, recvBuf_replyMsg lt, Option.map_some, if_pos more]

theorem receive_doneMsg {c : Client} (all : c.replyCount = requestNum) :
    c.receive [[], doneMsg] = some { c with phase := .looping, doneCount := c.doneCount + 1 } := by
  have buf : recvBuf doneMsg = some doneMsg := rfl
  rw [Client.receive, buf, Option.map_some, if_neg (by omega), if_pos rfl]

/-! ### The order of the servers -/

/-- The client's socket goes around the servers that were not told to quit before it comes to
one that was, and these are all there are. -/
def Around (peers asked : List Nat) : Prop :=
  ∃ fresh stale, peers = fresh ++ stale ∧ (fresh ++ asked).Perm (List.range serverNum) ∧
    ∀ seq ∈ stale, seq ∈ asked

namespace Around

variable {peers asked : List Nat} {seq : Nat}

theorem start : Around (List.range serverNum) [] :=
  ⟨List.range serverNum, [], (List.append_nil _).symm, by rw [List.append_nil],
    fun _ mem => absurd mem List.not_mem_nil⟩

theorem nodup (around : Around peers asked) : asked.Nodup := by
  obtain ⟨fresh, stale, -, all, -⟩ := around
  exact (List.nodup_append.mp (all.nodup_iff.mpr List.nodup_range)).2.1

theorem lt_of_mem (around : Around peers asked) (mem : seq ∈ asked) : seq < serverNum := by
  obtain ⟨fresh, stale, -, all, -⟩ := around
  exact List.mem_range.mp (all.subset (List.mem_append_right fresh mem))

theorem length_le (around : Around peers asked) : asked.length ≤ serverNum := by
  obtain ⟨fresh, stale, -, all, -⟩ := around
  have length := all.length_eq
  rw [List.length_append, List.length_range] at length
  omega

/-- While a server was not told to quit, one of these is next. -/
theorem next (around : Around peers asked) (left : asked.length < serverNum) :
    ∃ seq rest, peers = seq :: rest ∧ seq < serverNum ∧ seq ∉ asked ∧
      Around (rest ++ [seq]) (seq :: asked) := by
  obtain ⟨fresh, stale, rfl, all, known⟩ := around
  cases fresh with
  | nil =>
      have length := all.length_eq
      rw [List.nil_append, List.length_range] at length
      omega
  | cons seq fresh =>
      have inside : seq ∈ List.range serverNum := all.subset List.mem_cons_self
      have unique := all.nodup_iff.mpr List.nodup_range
      refine ⟨seq, fresh ++ stale, rfl, List.mem_range.mp inside, ?_, fresh, stale ++ [seq], ?_, ?_,
        ?_⟩
      · intro mem
        rw [List.cons_append, List.nodup_cons] at unique
        exact unique.1 (List.mem_append_right _ mem)
      · rw [List.append_assoc]
      · exact List.perm_middle.trans all
      · intro other mem
        rcases List.mem_append.mp mem with mem | mem
        · exact List.mem_cons_of_mem _ (known other mem)
        · exact List.mem_singleton.mp mem ▸ List.mem_cons_self

/-- A request goes around the servers while none was told to quit. -/
theorem pass {rest : List Nat} (around : Around (seq :: rest) []) :
    seq < serverNum ∧ Around (rest ++ [seq]) [] := by
  obtain ⟨fresh, stale, same, all, known⟩ := around
  have none_stale : stale = [] := List.eq_nil_iff_forall_not_mem.mpr fun seq mem =>
    absurd (known seq mem) List.not_mem_nil
  obtain rfl := none_stale
  rw [List.append_nil] at same all
  obtain rfl := same
  refine ⟨List.mem_range.mp (all.subset List.mem_cons_self), rest ++ [seq], [],
    (List.append_nil _).symm, ?_, fun _ mem => absurd mem List.not_mem_nil⟩
  rw [List.append_nil]
  exact List.perm_append_comm.trans all

/-- A server that was told to quit may be dropped. -/
theorem drop (around : Around peers asked) (told : seq ∈ asked) (mem : seq ∈ peers) :
    Around (peers.erase seq) asked := by
  obtain ⟨fresh, stale, rfl, all, known⟩ := around
  have apart : seq ∉ fresh := by
    intro inside
    have unique := List.nodup_append.mp (all.nodup_iff.mpr List.nodup_range)
    exact unique.2.2 seq inside seq told rfl
  refine ⟨fresh, stale.erase seq, List.erase_append_right _ apart, all, fun other mem => ?_⟩
  exact known other (List.mem_of_mem_erase mem)

end Around

/-! ### Stages -/

/-- A request of the client, or the reply of a server. -/
inductive Greeting : Chan × Msg → Prop where
  | request {seq t : Nat} (lt : seq < serverNum) (sent : t < requestNum) :
      Greeting (.toServer seq, [[], requestMsg t])
  | reply {seq : Nat} (lt : seq < serverNum) : Greeting (.toClient seq, [[], replyMsg seq])

/-- How far the client is: it waits for replies, has told as many servers to quit as are done,
waits for a server that it has told or for one that is done, or has finished. -/
inductive Stage (s : State) : Prop where
  | replies (phase : s.client.phase = .looping ∨
        s.client.phase = .polling ∧ s.client.t = requestNum ∧ s.client.replyCount < requestNum)
      (asked : s.asked = []) (exited : s.exited = []) (done : s.client.doneCount = 0)
      (messages : ∀ packet ∈ s.net, Greeting packet)
      (count : s.net.length + s.client.replyCount = s.client.t)
      (sent : s.client.t ≤ requestNum)
  | between (phase : s.client.phase = .looping) (sent : s.client.t = requestNum)
      (replied : s.client.replyCount = requestNum) (quiet : s.net = [])
      (exited : s.exited = s.asked) (done : s.client.doneCount = s.asked.length)
  | asking (seq : Nat) (rest : List Nat) (phase : s.client.phase = .polling)
      (sent : s.client.t = requestNum) (replied : s.client.replyCount = requestNum)
      (message : s.net = [(.toServer seq, [[], quitMsg])]) (asked : s.asked = seq :: rest)
      (exited : s.exited = rest) (done : s.client.doneCount = rest.length)
  | answered (seq : Nat) (rest : List Nat) (phase : s.client.phase = .polling)
      (sent : s.client.t = requestNum) (replied : s.client.replyCount = requestNum)
      (message : s.net = [(.toClient seq, [[], doneMsg])]) (asked : s.asked = seq :: rest)
      (exited : s.exited = seq :: rest) (done : s.client.doneCount = rest.length)
  | finished (phase : s.client.phase = .finished) (sent : s.client.t = requestNum)
      (replied : s.client.replyCount = requestNum) (quiet : s.net = [])
      (exited : s.exited = s.asked) (all : s.asked.length = serverNum)
      (done : s.client.doneCount = serverNum)

structure Orderly (s : State) : Prop where
  around : Around s.peers s.asked
  stage : Stage s

/-! ### Steps -/

section Steps

variable {s s' : State}

theorem recv_singleton {c c' : Chan} {m m' : Msg} {net : Net Chan Msg}
    (received : Net.recv c [(c', m')] = some (m, net)) : c = c' ∧ m = m' ∧ net = [] := by
  have mem := Net.mem_of_recv received
  obtain ⟨rfl, rfl⟩ := Prod.mk.inj (List.mem_singleton.mp mem)
  have length := (Net.recv_perm received).length_eq
  refine ⟨rfl, rfl, List.length_eq_zero_iff.mp ?_⟩
  simpa using length.symm

theorem send_eq_some {seq : Nat} {content : Frame} (sent : s.send content = some (seq, s')) :
    ∃ peers, s.peers = seq :: peers ∧ s' = { s with
      peers := peers ++ [seq]
      net := s.net.send (.toServer seq) [[], content] } := by
  unfold State.send at sent
  split at sent
  · cases sent
  · rename_i seq' peers listed
    obtain ⟨rfl, rfl⟩ := Prod.mk.inj (Option.some.inj sent)
    exact ⟨peers, listed, rfl⟩

theorem Orderly.request (before : Orderly s) (taken : step s .request = some s') : Orderly s' := by
  obtain ⟨⟨looping, more⟩, taken⟩ := Option.ite_none_right_eq_some.mp taken
  obtain ⟨⟨seq, s''⟩, sent, rfl⟩ := Option.map_eq_some_iff.mp taken
  obtain ⟨peers, listed, rfl⟩ := send_eq_some sent
  cases before.stage with
  | replies phase asked exited done messages count bound =>
      have around := before.around
      rw [listed, asked] at around
      obtain ⟨inside, around⟩ := around.pass
      refine ⟨asked ▸ around, .replies (.inl looping) asked exited done ?_ ?_ more⟩
      · intro packet mem
        rcases Net.mem_send.mp mem with mem | rfl
        · exact messages packet mem
        · exact .request inside more
      · show (s.net ++ [_]).length + s.client.replyCount = s.client.t + 1
        rw [List.length_append, List.length_singleton]
        omega
  | between phase all => exact absurd more (by omega)
  | asking seq rest phase => cases looping.symm.trans phase
  | answered seq rest phase => cases looping.symm.trans phase
  | finished phase => cases looping.symm.trans phase

theorem Orderly.turn (before : Orderly s) (taken : step s .turn = some s') : Orderly s' := by
  obtain ⟨⟨looping, sent⟩, taken⟩ := Option.ite_none_right_eq_some.mp taken
  split at taken
  · -- a server is told to quit
    rename_i quits
    obtain ⟨⟨seq, s''⟩, given, rfl⟩ := Option.map_eq_some_iff.mp taken
    obtain ⟨peers, listed, rfl⟩ := send_eq_some given
    have told : s.net = [] ∧ s.exited = s.asked ∧ s.client.doneCount = s.asked.length := by
      cases before.stage with
      | replies phase asked exited done messages count bound =>
          have none_left : s.net = [] := List.length_eq_zero_iff.mp (by omega)
          exact ⟨none_left, exited.trans asked.symm, by rw [done, asked]; rfl⟩
      | between phase sent replied quiet exited done => exact ⟨quiet, exited, done⟩
      | asking seq rest phase => cases looping.symm.trans phase
      | answered seq rest phase => cases looping.symm.trans phase
      | finished phase => cases looping.symm.trans phase
    obtain ⟨quiet, exited, done⟩ := told
    obtain ⟨seq', rest, listed', -, -, around⟩ := before.around.next (done ▸ quits.2)
    obtain ⟨rfl, rfl⟩ := List.cons.inj (listed.symm.trans listed')
    refine ⟨around, .asking seq s.asked rfl sent quits.1 ?_ rfl exited done⟩
    show s.net ++ [_] = _
    rw [quiet]
    rfl
  · rename_i more
    split at taken
    · rename_i all
      obtain rfl := Option.some.inj taken
      refine ⟨before.around, ?_⟩
      cases before.stage with
      | replies phase asked exited done => exact absurd (done.symm.trans all) (by decide)
      | between phase sent replied quiet exited done =>
          exact .finished rfl sent replied quiet exited (done.symm.trans all) all
      | asking seq rest phase => cases looping.symm.trans phase
      | answered seq rest phase => cases looping.symm.trans phase
      | finished phase => cases looping.symm.trans phase
    · rename_i some_left
      obtain rfl := Option.some.inj taken
      refine ⟨before.around, ?_⟩
      cases before.stage with
      | replies phase asked exited done messages count bound =>
          have waits : s.client.replyCount < requestNum := by
            have few : s.client.doneCount < serverNum := done ▸ by decide
            have other : s.client.replyCount ≠ requestNum := fun all => more ⟨all, few⟩
            omega
          exact .replies (.inr ⟨rfl, sent, waits⟩) asked exited done messages count bound
      | between phase sent replied quiet exited done =>
          have length := before.around.length_le
          exact absurd ⟨replied, by omega⟩ more
      | asking seq rest phase => cases looping.symm.trans phase
      | answered seq rest phase => cases looping.symm.trans phase
      | finished phase => cases looping.symm.trans phase

theorem Orderly.receive {seq : Nat} (before : Orderly s)
    (taken : step s (.receive seq) = some s') : Orderly s' := by
  obtain ⟨polling, taken⟩ := Option.ite_none_right_eq_some.mp taken
  obtain ⟨⟨msg, net⟩, received, taken⟩ := Option.bind_eq_some_iff.mp taken
  obtain ⟨client, counted, taken⟩ := Option.bind_eq_some_iff.mp taken
  obtain rfl := Option.some.inj taken
  refine ⟨before.around, ?_⟩
  cases before.stage with
  | replies phase asked exited done messages count bound =>
      have waits : s.client.replyCount < requestNum := by
        rcases phase with looping | ⟨_, _, waits⟩
        · cases looping.symm.trans polling
        · exact waits
      have length := (Net.recv_perm received).length_eq
      rw [List.length_cons] at length
      cases messages _ (Net.mem_of_recv received) with
      | reply lt =>
          obtain rfl := Option.some.inj ((receive_replyMsg lt waits).symm.trans counted)
          refine .replies (.inl rfl) asked exited done ?_ ?_ bound
          · exact fun packet mem => messages packet (Net.mem_of_mem_recv received mem)
          · show net.length + (s.client.replyCount + 1) = s.client.t
            omega
  | between phase => cases polling.symm.trans phase
  | asking seq rest phase sent replied message =>
      obtain ⟨wrong, -⟩ := recv_singleton (message ▸ received)
      cases wrong
  | answered seq rest phase sent replied message asked exited done =>
      obtain ⟨-, rfl, rfl⟩ := recv_singleton (message ▸ received)
      obtain rfl := Option.some.inj ((receive_doneMsg replied).symm.trans counted)
      refine .between rfl sent replied rfl (exited.trans asked.symm) ?_
      show s.client.doneCount + 1 = s.asked.length
      rw [done, asked, List.length_cons]
  | finished phase => cases polling.symm.trans phase

theorem Orderly.serve {seq : Nat} (before : Orderly s)
    (taken : step s (.serve seq) = some s') : Orderly s' := by
  obtain ⟨⟨lt, running⟩, taken⟩ := Option.ite_none_right_eq_some.mp taken
  obtain ⟨⟨msg, net⟩, received, taken⟩ := Option.bind_eq_some_iff.mp taken
  cases before.stage with
  | replies phase asked exited done messages count bound =>
      have length := (Net.recv_perm received).length_eq
      rw [List.length_cons] at length
      cases messages _ (Net.mem_of_recv received) with
      | request lt sent =>
          simp only [reqRecv, serve_requestMsg seq sent, Option.bind_eq_bind, Option.bind_some]
            at taken
          obtain rfl := Option.some.inj taken
          refine ⟨before.around, .replies phase asked exited done ?_ ?_ bound⟩
          · intro packet mem
            rcases Net.mem_send.mp mem with mem | rfl
            · exact messages packet (Net.mem_of_mem_recv received mem)
            · exact .reply lt
          · show (net ++ [_]).length + s.client.replyCount = s.client.t
            rw [List.length_append, List.length_singleton]
            omega
  | between phase sent replied quiet =>
      rw [quiet] at received
      cases received
  | asking seq' rest phase sent replied message asked exited done =>
      obtain ⟨same, rfl, rfl⟩ := recv_singleton (message ▸ received)
      obtain rfl := Chan.toServer.inj same
      simp only [reqRecv, serve_quitMsg, Option.bind_eq_bind, Option.bind_some] at taken
      obtain rfl := Option.some.inj taken
      exact ⟨before.around, .answered seq rest phase sent replied rfl asked
        (congrArg (seq :: ·) exited) done⟩
  | answered seq rest phase sent replied message =>
      obtain ⟨wrong, -⟩ := recv_singleton (message ▸ received)
      cases wrong
  | finished phase sent replied quiet =>
      rw [quiet] at received
      cases received

theorem Orderly.told (before : Orderly s) {seq : Nat} (quit : seq ∈ s.exited) : seq ∈ s.asked := by
  cases before.stage with
  | replies phase asked exited => exact absurd (exited ▸ quit) List.not_mem_nil
  | between phase sent replied quiet exited => exact exited ▸ quit
  | asking seq' rest phase sent replied message asked exited =>
      exact asked ▸ List.mem_cons_of_mem _ (exited ▸ quit)
  | answered seq' rest phase sent replied message asked exited =>
      exact asked ▸ exited ▸ quit
  | finished phase sent replied quiet exited => exact exited ▸ quit

theorem Orderly.drop {seq : Nat} (before : Orderly s) (taken : step s (.drop seq) = some s') :
    Orderly s' := by
  obtain ⟨⟨quit, mem⟩, same⟩ := Option.ite_none_right_eq_some.mp taken
  obtain rfl := Option.some.inj same
  refine ⟨before.around.drop (before.told quit) mem, ?_⟩
  cases before.stage with
  | replies phase asked exited done messages count bound =>
      exact .replies phase asked exited done messages count bound
  | between phase sent replied quiet exited done =>
      exact .between phase sent replied quiet exited done
  | asking seq' rest phase sent replied message asked exited done =>
      exact .asking seq' rest phase sent replied message asked exited done
  | answered seq' rest phase sent replied message asked exited done =>
      exact .answered seq' rest phase sent replied message asked exited done
  | finished phase sent replied quiet exited all done =>
      exact .finished phase sent replied quiet exited all done

theorem Orderly.step {l : Label} (before : Orderly s) (taken : hello.step s l = some s') :
    Orderly s' := by
  cases l with
  | request => exact before.request taken
  | turn => exact before.turn taken
  | receive seq => exact before.receive taken
  | serve seq => exact before.serve taken
  | drop seq => exact before.drop taken

theorem Orderly.start : Orderly hello.start where
  around := .start
  stage := .replies (.inl rfl) rfl rfl rfl (fun _ mem => absurd mem List.not_mem_nil) rfl
    (Nat.zero_le _)

end Steps

/-! ### Steps that are left -/

/-- The steps that a message has before it, but for its receipt by the client. -/
def serves : Chan × Msg → Nat
  | (.toServer _, _) => 1
  | (.toClient _, _) => 0

/-- The steps that are left of a run. -/
def State.remaining (s : State) : Nat :=
  2 * (requestNum - s.client.t) + (serverNum - s.asked.length) + Net.weight serves s.net +
    2 * ((requestNum - s.client.replyCount) + (serverNum - s.client.doneCount)) +
    if s.client.phase = .looping then 1 else 0

/-- A step of the client or of a server. -/
def Label.works : Label → Bool
  | .drop _ => false
  | _ => true

section Remaining

variable {s s' : State}

theorem remaining_request (taken : step s .request = some s') :
    s'.remaining + 1 = s.remaining := by
  obtain ⟨⟨looping, more⟩, taken⟩ := Option.ite_none_right_eq_some.mp taken
  obtain ⟨⟨seq, s''⟩, sent, rfl⟩ := Option.map_eq_some_iff.mp taken
  obtain ⟨peers, -, rfl⟩ := send_eq_some sent
  have added := Net.weight_send serves s.net (.toServer seq) [[], requestMsg s.client.t]
  simp only [serves] at added
  simp only [State.remaining, added]
  omega

theorem remaining_turn (before : Orderly s) (taken : step s .turn = some s') :
    s'.remaining + 1 = s.remaining := by
  obtain ⟨⟨looping, sent⟩, taken⟩ := Option.ite_none_right_eq_some.mp taken
  split at taken
  · rename_i quits
    obtain ⟨⟨seq, s''⟩, given, rfl⟩ := Option.map_eq_some_iff.mp taken
    obtain ⟨peers, -, rfl⟩ := send_eq_some given
    have added := Net.weight_send serves s.net (.toServer seq) [[], quitMsg]
    have left : s.asked.length < serverNum := by
      cases before.stage with
      | replies phase asked => exact asked ▸ by decide
      | between phase sent replied quiet exited done => exact done ▸ quits.2
      | asking seq rest phase => cases looping.symm.trans phase
      | answered seq rest phase => cases looping.symm.trans phase
      | finished phase => cases looping.symm.trans phase
    simp only [serves] at added
    simp only [State.remaining, added, looping, List.length_cons, reduceCtorEq, if_true, if_false]
    omega
  · split at taken
    · obtain rfl := Option.some.inj taken
      simp only [State.remaining, looping, reduceCtorEq, if_true, if_false]
    · obtain rfl := Option.some.inj taken
      simp only [State.remaining, looping, reduceCtorEq, if_true, if_false]

theorem remaining_receive {seq : Nat} (before : Orderly s)
    (taken : step s (.receive seq) = some s') : s'.remaining + 1 = s.remaining := by
  obtain ⟨polling, taken⟩ := Option.ite_none_right_eq_some.mp taken
  obtain ⟨⟨msg, net⟩, received, taken⟩ := Option.bind_eq_some_iff.mp taken
  obtain ⟨client, counted, taken⟩ := Option.bind_eq_some_iff.mp taken
  obtain rfl := Option.some.inj taken
  have fewer := Net.weight_recv serves received
  simp only [serves] at fewer
  cases before.stage with
  | replies phase asked exited done messages =>
      have waits : s.client.replyCount < requestNum := by
        rcases phase with looping | ⟨_, _, waits⟩
        · cases looping.symm.trans polling
        · exact waits
      cases messages _ (Net.mem_of_recv received) with
      | reply lt =>
          obtain rfl := Option.some.inj ((receive_replyMsg lt waits).symm.trans counted)
          simp only [State.remaining, polling, reduceCtorEq, if_true, if_false]
          omega
  | between phase => cases polling.symm.trans phase
  | asking seq rest phase sent replied message =>
      obtain ⟨wrong, -⟩ := recv_singleton (message ▸ received)
      cases wrong
  | answered seq rest phase sent replied message asked exited done =>
      obtain ⟨-, rfl, -⟩ := recv_singleton (message ▸ received)
      obtain rfl := Option.some.inj ((receive_doneMsg replied).symm.trans counted)
      have bound := before.around.length_le
      rw [asked, List.length_cons] at bound
      simp only [State.remaining, polling, reduceCtorEq, if_true, if_false]
      omega
  | finished phase => cases polling.symm.trans phase

theorem remaining_serve {seq : Nat} (taken : step s (.serve seq) = some s') :
    s'.remaining + 1 = s.remaining := by
  obtain ⟨-, taken⟩ := Option.ite_none_right_eq_some.mp taken
  obtain ⟨⟨msg, net⟩, received, taken⟩ := Option.bind_eq_some_iff.mp taken
  have fewer := Net.weight_recv serves received
  simp only [serves] at fewer
  dsimp only at taken
  split at taken
  · obtain ⟨⟨answer, quits⟩, -, taken⟩ := Option.bind_eq_some_iff.mp taken
    obtain rfl := Option.some.inj taken
    have added := Net.weight_send serves net (.toClient seq) (reqSend [answer])
    simp only [serves] at added
    simp only [State.remaining, added]
    omega
  · cases taken

theorem remaining_step {l : Label} (before : Orderly s) (taken : hello.step s l = some s') :
    s'.remaining + (if l.works then 1 else 0) = s.remaining := by
  cases l with
  | request => exact remaining_request taken
  | turn => exact remaining_turn before taken
  | receive seq => exact remaining_receive before taken
  | serve seq => exact remaining_serve taken
  | drop seq =>
      obtain ⟨-, same⟩ := Option.ite_none_right_eq_some.mp taken
      obtain rfl := Option.some.inj same
      rfl

end Remaining

/-! ### The end -/

section End

variable {s : State}

theorem Orderly.remaining_eq_zero (orderly : Orderly s) :
    s.remaining = 0 ↔ s.client.phase = .finished := by
  have bound := orderly.around.length_le
  unfold State.remaining
  cases orderly.stage with
  | replies phase asked exited done =>
      rw [done]
      rcases phase with looping | ⟨polling, -, waits⟩
      · simp [looping]
      · simp only [polling, reduceCtorEq, iff_false]
        omega
  | between phase => simp [phase]
  | asking seq rest phase sent replied message asked exited done =>
      rw [asked, List.length_cons] at bound
      simp only [phase, reduceCtorEq, iff_false]
      omega
  | answered seq rest phase sent replied message asked exited done =>
      rw [asked, List.length_cons] at bound
      simp only [phase, reduceCtorEq, iff_false]
      omega
  | finished phase sent replied quiet exited all done =>
      rw [sent, replied, quiet, all, done]
      simp [phase, Net.weight]

/-- All servers have quit when the client has finished, and nothing is left on its way. -/
theorem Orderly.all_quit (orderly : Orderly s) (finished : s.client.phase = .finished) :
    s.exited.Perm (List.range serverNum) ∧ s.net = [] := by
  cases orderly.stage with
  | replies phase =>
      rcases phase with looping | ⟨polling, -⟩
      · cases finished.symm.trans looping
      · cases finished.symm.trans polling
  | between phase => cases finished.symm.trans phase
  | asking seq rest phase => cases finished.symm.trans phase
  | answered seq rest phase => cases finished.symm.trans phase
  | finished phase sent replied quiet exited all =>
      obtain ⟨fresh, stale, -, perm, -⟩ := orderly.around
      have length := perm.length_eq
      rw [List.length_append, List.length_range] at length
      obtain rfl := List.length_eq_zero_iff.mp (show fresh.length = 0 by omega)
      exact ⟨exited ▸ perm, quiet⟩

/-- The client can take a turn of its loop: there is a server to tell to quit, if it is time. -/
theorem Orderly.turn_defined (orderly : Orderly s) (looping : s.client.phase = .looping)
    (sent : s.client.t = requestNum) (told : s.client.doneCount = s.asked.length) :
    ∃ s', hello.step s .turn = some s' := by
  simp only [hello, Hello.step, looping, sent, and_self, if_true]
  split
  · rename_i quits
    obtain ⟨seq, rest, listed, -⟩ := orderly.around.next (told ▸ quits.2)
    simp only [State.send, listed, Option.map_some]
    exact ⟨_, rfl⟩
  · split
    · exact ⟨_, rfl⟩
    · exact ⟨_, rfl⟩

theorem serve_defined {seq : Nat} {content : Frame} {net : Net Chan Msg} {out : Frame × Bool}
    (lt : seq < serverNum) (running : seq ∉ s.exited)
    (received : Net.recv (.toServer seq) s.net = some ([[], content], net))
    (answered : serve seq content = some out) :
    ∃ l s', Label.works l = true ∧ hello.step s l = some s' := by
  obtain ⟨answer, quits⟩ := out
  have done : ∃ s', hello.step s (.serve seq) = some s' := by
    simp only [hello, step, lt, running, not_false_eq_true, and_self, if_true, received, reqRecv,
      answered, Option.bind_eq_bind, Option.bind_some]
    exact ⟨_, rfl⟩
  obtain ⟨s', done⟩ := done
  exact ⟨.serve seq, s', rfl, done⟩

theorem receive_defined {seq : Nat} {msg : Msg} {net : Net Chan Msg} {client : Client}
    (polling : s.client.phase = .polling)
    (received : Net.recv (.toClient seq) s.net = some (msg, net))
    (counted : s.client.receive msg = some client) :
    ∃ l s', Label.works l = true ∧ hello.step s l = some s' := by
  have done : ∃ s', hello.step s (.receive seq) = some s' := by
    simp only [hello, step, polling, if_true, received, counted, Option.bind_eq_bind,
      Option.bind_some]
    exact ⟨_, rfl⟩
  obtain ⟨s', done⟩ := done
  exact ⟨.receive seq, s', rfl, done⟩

/-- A message on its way is served or received. -/
theorem Orderly.message_defined (orderly : Orderly s) (polling : s.client.phase = .polling) :
    ∃ l s', Label.works l = true ∧ hello.step s l = some s' := by
  cases orderly.stage with
  | replies phase asked exited done messages count bound =>
      rcases phase with looping | ⟨-, sent, waits⟩
      · cases looping.symm.trans polling
      obtain ⟨⟨chan, msg⟩, rest, some_left⟩ := List.exists_cons_of_length_pos
        (show 0 < s.net.length by omega)
      have mem : (chan, msg) ∈ s.net := some_left ▸ List.mem_cons_self
      obtain ⟨msg', net, received⟩ := Net.recv_of_mem mem
      cases messages _ (Net.mem_of_recv received) with
      | @request seq t lt sent =>
          exact serve_defined lt (exited ▸ List.not_mem_nil) received (serve_requestMsg seq sent)
      | @reply seq lt => exact receive_defined polling received (receive_replyMsg lt waits)
  | between phase => cases polling.symm.trans phase
  | asking seq rest phase sent replied message asked exited =>
      have inside := orderly.around.lt_of_mem (asked ▸ List.mem_cons_self)
      have running : seq ∉ s.exited := by
        have once := orderly.around.nodup
        rw [asked, List.nodup_cons] at once
        exact exited ▸ once.1
      have received : Net.recv (.toServer seq) s.net = some ([[], quitMsg], []) := by
        rw [message, Net.recv, if_pos rfl]
      exact serve_defined inside running received (serve_quitMsg seq)
  | answered seq rest phase sent replied message =>
      have received : Net.recv (.toClient seq) s.net = some ([[], doneMsg], []) := by
        rw [message, Net.recv, if_pos rfl]
      exact receive_defined polling received (receive_doneMsg replied)
  | finished phase => cases polling.symm.trans phase

theorem Orderly.goes_on (orderly : Orderly s) (unfinished : s.client.phase ≠ .finished) :
    ∃ l s', Label.works l = true ∧ hello.step s l = some s' := by
  have stage := orderly.stage
  cases phase : s.client.phase with
  | finished => exact absurd phase unfinished
  | polling => exact orderly.message_defined phase
  | looping =>
      by_cases more : s.client.t < requestNum
      · have none_told : s.asked = [] := by
          cases stage with
          | replies phase asked => exact asked
          | between phase sent => exact absurd more (by omega)
          | asking seq rest polling => cases phase.symm.trans polling
          | answered seq rest polling => cases phase.symm.trans polling
          | finished done => exact absurd done unfinished
        obtain ⟨seq, rest, listed, -⟩ := orderly.around.next (by rw [none_told]; decide)
        have done : ∃ s', hello.step s .request = some s' := by
          simp only [hello, Hello.step, phase, more, and_self, if_true, State.send, listed,
            Option.map_some]
          exact ⟨_, rfl⟩
        obtain ⟨s', done⟩ := done
        exact ⟨Label.request, s', rfl, done⟩
      · have told : s.client.t = requestNum ∧ s.client.doneCount = s.asked.length := by
          cases stage with
          | replies phase asked exited done messages count bound =>
              exact ⟨by omega, by rw [done, asked]; rfl⟩
          | between phase sent replied quiet exited done => exact ⟨sent, done⟩
          | asking seq rest polling => cases phase.symm.trans polling
          | answered seq rest polling => cases phase.symm.trans polling
          | finished done => exact absurd done unfinished
        obtain ⟨s', done⟩ := orderly.turn_defined phase told.1 told.2
        exact ⟨Label.turn, s', rfl, done⟩
  | aborted =>
      cases stage with
      | replies either =>
          rcases either with looping | ⟨polling, -⟩
          · cases phase.symm.trans looping
          · cases phase.symm.trans polling
      | between looping => cases phase.symm.trans looping
      | asking seq rest polling => cases phase.symm.trans polling
      | answered seq rest polling => cases phase.symm.trans polling
      | finished done => exact absurd done unfinished

/-- **Every run of `hello.cpp` ends**, and in as many steps in every order. The client's
assertion never fails; while the client has not finished there is always a step to take; no
server is told to quit twice; and when the client has finished every server has quit. -/
theorem hello_finishes {past : List (State × Label)} (run : Run hello past s) :
    s.client.phase ≠ .aborted ∧
    past.countP (fun p => p.2.works) + s.remaining = 4 * requestNum + 3 * serverNum + 1 ∧
    (s.remaining = 0 ↔ s.client.phase = .finished) ∧
    (s.client.phase ≠ .finished → ∃ l s', Label.works l = true ∧ hello.step s l = some s') ∧
    s.asked.Nodup ∧
    (s.client.phase = .finished → s.exited.Perm (List.range serverNum) ∧ s.net = []) := by
  obtain ⟨orderly, counted⟩ := run.spent Orderly (fun _ _ => True) State.remaining Label.works
    .start (fun s l s' before _ taken => ⟨before.step taken, remaining_step before taken⟩)
    fun _ _ => trivial
  refine ⟨?_, counted, orderly.remaining_eq_zero, orderly.goes_on, orderly.around.nodup,
    orderly.all_quit⟩
  intro aborted
  cases orderly.stage with
  | replies either =>
      rcases either with looping | ⟨polling, -⟩
      · cases aborted.symm.trans looping
      · cases aborted.symm.trans polling
  | between looping => cases aborted.symm.trans looping
  | asking seq rest polling => cases aborted.symm.trans polling
  | answered seq rest polling => cases aborted.symm.trans polling
  | finished done => cases aborted.symm.trans done

/-- All requests go out before the first server answers, and one that has quit is dropped. -/
def helloRun : List Label :=
  List.replicate 5 .request ++ [.serve 2, .serve 1, .serve 0, .serve 1, .serve 0] ++
    [.turn, .receive 1, .turn, .receive 0, .turn, .receive 2, .turn, .receive 0, .turn,
      .receive 1] ++
    [.turn, .serve 2, .drop 2, .receive 2, .turn, .serve 0, .receive 0, .turn, .serve 1,
      .receive 1, .turn]

theorem hello_finishes_last_dropped : ∃ (past : List (State × Label)) (s : State),
    Run hello past s ∧ past.countP (fun p => p.2.works) = 30 ∧ s.client.phase = .finished ∧
      s.exited.Perm (List.range 3) := by
  have ran : (hello.record [] hello.start helloRun).map (fun p =>
      (p.1.countP fun p => p.2.works, p.2.client.phase)) = some (30, .finished) := by decide +kernel
  obtain ⟨⟨past, s⟩, done, seen⟩ := Option.map_eq_some_iff.mp ran
  have run := Run.record .start done
  obtain ⟨works, phase⟩ := Prod.mk.inj seen
  obtain ⟨-, -, -, -, -, quit⟩ := hello_finishes run
  exact ⟨past, s, run, works, phase, (quit phase).1⟩

end End

end ZmqPractices.Hello
