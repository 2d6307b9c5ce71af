import ZmqPractices.Peering.Custody

/-!
The replies a client of the peering prototype gets.

A client has at most one outstanding request, and the tasks of its key in the system
are a part of that one: `Answered` says so, and that the client has taken the replies
to all its earlier requests. Receiving takes the task from both sides, every other step
only moves or loses it (`Keeps`), and sending adds the task to both sides if what goes on
the wire is the task id.

That is so for names without a percent sign that leave room in `task_id`, and on Windows
for any name that does (`Sendable`). Under another name the first request has already no
reply that its client would accept (`percent_name_aborts`).
-/

namespace ZmqPractices.Peering

open Czmq Lib

variable {build : Build} {cluster : Cluster} {s s' : State} {self identity : Frame}

/-- The request a client has sent and got no reply to. -/
def Client.outstanding (c : Client) : List Frame :=
  match c.phase with
  | .waiting task => [task]
  | .lost task => [task]
  | _ => []

/-- A client has got the replies to all its requests but the outstanding one, and has
neither failed its assertion nor made a send that C leaves undefined. -/
structure Served (c : Client) : Prop where
  running : c.phase ≠ .aborted
  defined : c.phase ≠ .undefined
  replies : c.sent = c.monitor ++ c.outstanding
  nulFree : ∀ task ∈ c.outstanding, NulFree task

/-- Each client is served, and the tasks of its key are at most the outstanding one. -/
structure Answered (s : State) : Prop where
  served : ∀ key c, s.client key = some c → Served c
  owed : ∀ key, (Net.on key (tokens s)).Subperm ((s.client key).elim [] Client.outstanding)

/-- The other parties move and lose tasks, and leave the clients alone. -/
theorem Answered.keeps (before : Answered s) (keeps : Keeps cluster s s') : Answered s' where
  served := keeps.client ▸ before.served
  owed key := by
    rw [keeps.client]
    exact (Net.Subperm.on keeps.fewer key).trans (before.owed key)

/-! ### Steps of a client -/

/-- Writing to a client whose tasks are all accounted for. The other clients have the
tasks they had. -/
theorem Answered.setClient {c : Client} {net : Net Chan Msg} (before : Answered s)
    (served : Served c)
    (owed : (Net.on (self, identity) (net.filterMap tokenOf ++ s.workers.flatMap held)).Subperm
      c.outstanding)
    (others : ∀ key, key ≠ (self, identity) →
      (Net.on key (net.filterMap tokenOf)).Perm (Net.on key (s.net.filterMap tokenOf))) :
    Answered { s.setClient (self, identity) c with net := net } where
  served := by
    intro key c' found
    by_cases here : key = (self, identity)
    · simp only [State.setClient, here, Function.update_self, Option.some.injEq] at found
      exact found ▸ served
    · simp only [State.setClient, Function.update_of_ne here] at found
      exact before.served key c' found
  owed := by
    intro key
    by_cases here : key = (self, identity)
    · simp only [State.setClient, here, Function.update_self, Option.elim_some]
      exact owed
    · simp only [State.setClient, Function.update_of_ne here]
      refine List.Subperm.trans (List.Perm.subperm ?_) (before.owed key)
      rw [tokens, tokens, Net.on_append, Net.on_append]
      exact (others key here).append_right _

/-- With nothing outstanding, no task of the client is in the system. -/
theorem Answered.none_of_idle {c : Client} (before : Answered s)
    (found : s.client (self, identity) = some c) (idle : c.outstanding = []) :
    Net.on (self, identity) (tokens s) = [] := by
  have owed := before.owed (self, identity)
  rw [found, Option.elim_some, idle] at owed
  exact List.subperm_nil.mp owed

/-- A task id that goes on the wire as it is. -/
theorem Answered.send {c : Client} (shaped : WellShaped cluster s) (before : Answered s)
    (found : s.client (self, identity) = some c) (idle : c.phase = .idle) (rand : Nat) :
    Answered { s.setClient (self, identity) (c.send (taskId self rand)) with
      net := s.net.send (.toLocalfe self identity) (reqSend [taskId self rand]) } := by
  have allowed := shaped.clients _ c found
  have loaded : tokenOf (.toLocalfe self identity, reqSend [taskId self rand]) =
      some ((self, identity), taskId self rand) := rfl
  have nothing : c.outstanding = [] := by rw [Client.outstanding, idle]
  have served := before.served _ c found
  apply before.setClient
  · refine ⟨by simp [Client.send], by simp [Client.send], ?_, ?_⟩
    · have replies := served.replies
      rw [nothing, List.append_nil] at replies
      rw [Client.send, replies]
      rfl
    · intro task mem
      obtain rfl := List.mem_singleton.mp mem
      exact nulFree_taskId (cluster.names_nulFree self allowed.1) rand
  · have none := before.none_of_idle found nothing
    rw [tokens, Net.on_append, List.append_eq_nil_iff] at none
    rw [Net.filterMap_send, loaded, Net.on_append, Net.on_append, none.1, none.2]
    simp [Client.send, Client.outstanding, Net.on]
  · intro key other
    rw [Net.filterMap_send, loaded, Net.on_append]
    have foreign : ¬ (self, identity) = key := fun same => other same.symm
    simp [Net.on, foreign]

theorem Answered.receive {c : Client} {task : Frame} {msg : Msg} {net : Net Chan Msg}
    (shaped : WellShaped cluster s) (before : Answered s)
    (found : s.client (self, identity) = some c) (waiting : c.phase = .waiting task)
    (received : Net.recv (.toClient self identity) s.net = some (msg, net)) :
    ∃ frame, reqRecv msg = some [frame] ∧
      Answered { s.setClient (self, identity) (c.receive task frame) with net := net } := by
  have shape := shaped.net _ (Net.mem_of_recv received)
  cases shape with
  | @reply _ _ frame zeroLed =>
      refine ⟨frame, rfl, ?_⟩
      have owes : c.outstanding = [task] := by rw [Client.outstanding, waiting]
      have served := before.served _ c found
      have carried : (s.net.filterMap tokenOf).Perm
          (((self, identity), frame) :: net.filterMap tokenOf) :=
        Net.filterMap_recv_perm tokenOf received
      -- the frame is a task of this client, so it is the outstanding one, and the only one
      have owed := before.owed (self, identity)
      rw [found, Option.elim_some, owes] at owed
      have split : (Net.on (self, identity) (tokens s)).Perm
          (frame :: Net.on (self, identity) (net.filterMap tokenOf ++ s.workers.flatMap held)) := by
        rw [tokens, Net.on_append, Net.on_append]
        apply ((Net.Perm.on carried _).append_right _).trans
        simp [Net.on]
      have owed := split.subperm_right.mp owed
      obtain rfl : frame = task := List.mem_singleton.mp (owed.subset List.mem_cons_self)
      have nothing : Net.on (self, identity)
          (net.filterMap tokenOf ++ s.workers.flatMap held) = [] :=
        List.length_eq_zero_iff.mp (Nat.le_zero.mp (Nat.le_of_succ_le_succ owed.length_le))
      have string : zframeStrdup frame = frame :=
        zframeStrdup_of_nulFree (served.nulFree frame (owes ▸ List.mem_cons_self))
      have taken : c.receive frame frame =
          { c with phase := .idle, monitor := c.monitor ++ [frame] } := by
        simp [Client.receive, string]
      rw [taken]
      apply before.setClient
      · refine ⟨by simp, by simp, ?_, by simp [Client.outstanding]⟩
        rw [served.replies, owes]
        simp [Client.outstanding]
      · rw [nothing]
        exact List.nil_subperm
      · intro key other
        have foreign : ¬ (self, identity) = key := fun same => other same.symm
        refine List.Perm.symm ((Net.Perm.on carried key).trans ?_)
        simp [Net.on, foreign]

theorem Answered.timeout {c : Client} {task : Frame} (before : Answered s)
    (found : s.client (self, identity) = some c) (waiting : c.phase = .waiting task) :
    Answered (s.setClient (self, identity) { c with phase := .lost task }) := by
  have owes : c.outstanding = [task] := by rw [Client.outstanding, waiting]
  have served := before.served _ c found
  have owed := before.owed (self, identity)
  rw [found, Option.elim_some, owes] at owed
  apply before.setClient
  · refine ⟨by simp, by simp, ?_, ?_⟩
    · rw [served.replies, owes]
      rfl
    · intro t mem
      exact served.nulFree t (owes ▸ mem)
  · exact owed
  · exact fun key _ => .refl _

theorem Answered.start (before : Answered s) (missing : s.client (self, identity) = none) :
    Answered (s.setClient (self, identity) .start) := by
  have owed := before.owed (self, identity)
  rw [missing, Option.elim_none] at owed
  apply before.setClient
  · exact ⟨by simp [Client.start], by simp [Client.start], rfl,
      by simp [Client.start, Client.outstanding]⟩
  · exact owed
  · exact fun key _ => .refl _

/-! ### Steps that send a task id -/

/-- A task id that the step sends goes on the wire as it is. -/
def SendsTaskId (build : Build) (_ : State) : Label → Prop
  | .client self _ (.send rand) => Sendable build self rand
  | _ => True

theorem Answered.client {step : ClientStep} (shaped : WellShaped cluster s) (before : Answered s)
    (sends : SendsTaskId build s (.client self identity step))
    (taken : clientStep build cluster s self identity step = some s') : Answered s' := by
  rcases clientStep_cases taken with ⟨_, missing, _, _, rfl⟩ |
    ⟨c, rand, string, rfl, found, idle, sent, rfl⟩ | ⟨c, rand, rfl, found, idle, undefined, rfl⟩ |
    ⟨c, task, msg, net, _, found, waiting, received, rfl⟩ | ⟨c, task, _, found, waiting, rfl⟩
  · exact before.start missing
  · rw [sendTask_eq_self_iff.mpr sends] at sent
    obtain rfl := Option.some.inj sent
    exact before.send shaped found idle rand
  · rw [sendTask_eq_self_iff.mpr sends] at undefined
    cases undefined
  · obtain ⟨frame, unwrapped, after⟩ := before.receive shaped found waiting received
    rw [unwrapped]
    exact after
  · exact before.timeout found waiting

theorem Answered.step {l : Label} (shaped : WellShaped cluster s) (before : Answered s)
    (sends : SendsTaskId build s l) (taken : (prototype build cluster).step s l = some s') :
    Answered s' := by
  cases l with
  | client self identity step => exact before.client shaped sends taken
  | _ => exact before.keeps (keeps_of_step shaped (fun _ _ _ => Label.noConfusion) taken)

theorem Answered.initial : Answered (prototype build cluster).start where
  served := by simp [prototype]
  owed _ := List.nil_subperm

/-! ### What a client gets -/

/-- What holds of a client: it runs; the replies it has taken, and the one that may be on its
way to it, are the tasks it has sent, in order and each at most once; and all the messages in
the system that carry a task of this client are together at most one, for the request it has
outstanding. -/
structure GetsReplies (s : State) (name identity : Frame) (c : Client) : Prop where
  running : c.phase ≠ .aborted
  defined : c.phase ≠ .undefined
  inOrder : ∃ replies rest : List Frame,
    s.net.on (.toClient name identity) = replies.map ([[], ·]) ∧
      c.sent = c.monitor ++ replies ++ rest
  owed : (Net.on (name, identity) (tokens s)).Subperm c.outstanding
  one : c.outstanding.length ≤ 1

/-- Every reply answers the current request of its client. -/
def RepliesAnswer (s : State) : Prop :=
  ∀ self identity c, s.client (self, identity) = some c → GetsReplies s self identity c

/-- The replies on their way to a client are tasks of its key. -/
theorem replies_of_shaped (self identity : Frame) (net : Net Chan Msg)
    (shaped : ∀ p ∈ net, Shaped cluster p.1 p.2) :
    ∃ replies : List Frame, Net.on (.toClient self identity) net = replies.map ([[], ·]) ∧
      replies.Sublist (Net.on (self, identity) (net.filterMap tokenOf)) := by
  induction net with
  | nil => exact ⟨[], rfl, .refl _⟩
  | cons p net ih =>
      obtain ⟨replies, on, sub⟩ := ih fun p mem => shaped p (List.mem_cons_of_mem _ mem)
      obtain ⟨chan, msg⟩ := p
      rw [Net.on_cons]
      by_cases here : chan = .toClient self identity
      · subst here
        have shape := shaped _ List.mem_cons_self
        cases shape with
        | @reply _ _ task _ =>
            refine ⟨task :: replies, by simp [on], ?_⟩
            have carried : tokenOf (.toClient self identity, [[], task]) =
              some ((self, identity), task) := rfl
            rw [List.filterMap_cons_some carried, Net.on_cons, if_pos rfl]
            exact sub.cons_cons _
      · refine ⟨replies, by rw [if_neg here, on], sub.trans ?_⟩
        cases carried : tokenOf (chan, msg) with
        | none => rw [List.filterMap_cons_none carried]
        | some t =>
            rw [List.filterMap_cons_some carried, Net.on_cons]
            split
            · exact List.sublist_cons_self _ _
            · exact .refl _

/-- A part of a list of at most one element is a prefix of it. -/
theorem prefix_of_subperm {α : Type*} {part whole : List α} (sub : part.Subperm whole)
    (short : whole.length ≤ 1) : part <+: whole := by
  cases part with
  | nil => exact List.nil_prefix
  | cons t part =>
      have perm := sub.perm_of_length_le (short.trans (Nat.le_add_left 1 _))
      obtain ⟨u, rfl⟩ := List.length_eq_one_iff.mp
        (le_antisymm short (perm.length_eq ▸ Nat.le_add_left 1 _))
      exact List.perm_singleton.mp perm ▸ List.prefix_rfl

theorem Answered.repliesAnswer (shaped : WellShaped cluster s) (answered : Answered s) :
    RepliesAnswer s := by
  intro self identity c found
  have served := answered.served _ c found
  have owed := answered.owed (self, identity)
  rw [found, Option.elim_some] at owed
  have short : c.outstanding.length ≤ 1 := by
    unfold Client.outstanding
    split <;> simp
  refine ⟨served.running, served.defined, ?_, owed, short⟩
  obtain ⟨replies, on, sub⟩ := replies_of_shaped self identity s.net shaped.net
  have part : replies.Subperm c.outstanding := by
    refine sub.subperm.trans (List.Subperm.trans ?_ owed)
    rw [tokens, Net.on_append]
    exact (List.sublist_append_left _ _).subperm
  obtain ⟨rest, same⟩ := prefix_of_subperm part short
  exact ⟨replies, rest, on, by rw [List.append_assoc, same, served.replies]⟩

/-- What goes on the wire for a task id under another name is another task, or nothing that C
defines. -/
theorem not_repliesAnswer {rand : Nat} (not_sendable : ¬ Sendable build self rand)
    (taken : clientStep build cluster s self identity (.send rand) = some s') :
    ¬ RepliesAnswer s' := by
  intro answers
  rcases clientStep_cases taken with ⟨⟨⟩, _⟩ | ⟨c, _, string, ⟨⟩, found, idle, sent, rfl⟩ |
    ⟨c, _, ⟨⟩, found, idle, undefined, rfl⟩ | ⟨_, _, _, _, ⟨⟩, _⟩ | ⟨_, _, ⟨⟩, _⟩
  · have gets := answers self identity (c.send (taskId self rand))
      (Function.update_self (self, identity) _ s.client)
    -- the frame on the wire is a task of this client, and not the one it waits for
    have carried : string ∈ Net.on (self, identity) (tokens { s.setClient (self, identity)
        (c.send (taskId self rand)) with
          net := s.net.send (.toLocalfe self identity) (reqSend [string]) }) := by
      rw [tokens, Net.on_append, Net.filterMap_send, Net.on_append]
      refine List.mem_append_left _ (List.mem_append_right _ ?_)
      simp [reqSend, tokenOf, Net.on]
    obtain rfl : string = taskId self rand :=
      List.mem_singleton.mp (gets.owed.subset carried)
    exact not_sendable (sendTask_eq_self_iff.mp sent)
  · exact (answers self identity c.undefine
      (Function.update_self (self, identity) _ s.client)).defined rfl

/-- **Every reply answers the client's current request.** In every run of any number of
peered brokers, no client fails its assertion and every reply is the one to the request that
its client has outstanding, in every state, exactly when each task id that is sent fits its
buffer and has, where `zstr_send` takes a format, no percent sign. -/
theorem replies_answer_requests_iff (build : Build) (cluster : Cluster)
    {past : List (State × Label)} {s : State} (run : Run (prototype build cluster) past s) :
    Always RepliesAnswer past s ↔ EachStep (SendsTaskId build) past := by
  apply run.exact (fun s => WellShaped cluster s ∧ Answered s) RepliesAnswer (SendsTaskId build)
  · have shaped : WellShaped cluster (prototype build cluster).start := .start
    exact ⟨⟨shaped, .initial⟩, Answered.initial.repliesAnswer shaped⟩
  · rintro s l s' ⟨shaped, answered⟩ - taken
    have after (sends : SendsTaskId build s l) : WellShaped cluster s' ∧ Answered s' :=
      ⟨shaped.step taken, answered.step shaped sends taken⟩
    refine ⟨⟨fun answers => ?_, fun sends => (after sends).2.repliesAnswer (after sends).1⟩, after⟩
    by_contra other
    cases l with
    | client self identity step =>
        cases step with
        | send rand => exact not_repliesAnswer other taken answers
        | _ => exact other trivial
    | _ => exact other trivial

instance (build : Build) (s : State) : (l : Label) → Decidable (SendsTaskId build s l)
  | .client self _ (.send rand) => inferInstanceAs (Decidable (Sendable build self rand))
  | .client _ _ .start | .client _ _ .receive | .client _ _ .timeout => .isTrue trivial
  | .worker .. | .broker .. | .lose .. | .loseStatus .. => .isTrue trivial

/-- Two brokers, A and B, that peer with each other. -/
def pair : Cluster where
  names := [[0x41], [0x42]]
  peers self := if self = [0x41] then [[0x42]] else if self = [0x42] then [[0x41]] else []
  names_nulFree := by decide
  names_ne_nil := by decide
  names_not_ready := by decide
  peers_named := by decide
  peers_symm := by decide

/-- A worker of each broker gets ready, A learns of its own capacity and gives the
request of its first client to its own worker, and the request of its second client
goes to B's worker and the answer comes back. -/
def overThePeer : List Label :=
  let a : Frame := [0x41]
  let b : Frame := [0x42]
  let w : Frame := [0, 1]
  [.worker a w .start, .broker a (.poll true false false), .broker a (.localbe w),
    .broker a .noStatus, .broker a .publish,
    .worker b w .start, .broker b (.poll true false false), .broker b (.localbe w),
    .broker b .noStatus,
    .client a [0, 2] .start, .client a [0, 2] (.send 7),
    .client a [0, 3] .start, .client a [0, 3] (.send 8),
    .broker a (.poll false false true), .broker a .noReply, .broker a .statefe,
    .broker a (.localfe [0, 2] 0), .broker a (.localfe [0, 3] 0), .broker a .publish,
    .broker b (.cloudfe a 0), .broker b .publish, .worker b w .receive, .worker b w .reply,
    .broker b (.poll true false false), .broker b (.localbe w),
    .broker a (.poll false true false), .broker a (.cloudbe b), .client a [0, 3] .receive]

/-- The second client got the answer to its request from the other broker. -/
theorem replies_answer_requests_over_the_peer :
    ∃ past s c, Run (prototype .posix pair) past s ∧ s.client ([0x41], [0, 3]) = some c ∧
      c.monitor = [taskId [0x41] 8] ∧ Always RepliesAnswer past s := by
  have ran : ((prototype .posix pair).record [] (prototype .posix pair).start overThePeer).map
      (fun out => (decide (EachStep (SendsTaskId .posix) out.1),
        out.2.client ([0x41], [0, 3]))) =
      some (true, some ⟨.idle, [taskId [0x41] 8], [taskId [0x41] 8]⟩) := by decide
  obtain ⟨⟨past, s⟩, done, seen⟩ := Option.map_eq_some_iff.mp ran
  simp only [Prod.mk.injEq, decide_eq_true_eq] at seen
  obtain ⟨sends, found⟩ := seen
  have run := Run.start.record done
  exact ⟨past, s, _, run, found, rfl, (replies_answer_requests_iff .posix pair run).mpr sends⟩

/-! ### A name with percent signs -/

/-- A broker whose name is two percent signs. -/
def percentName : Cluster where
  names := [[0x25, 0x25]]
  peers _ := []
  names_nulFree := by decide
  names_ne_nil := by decide
  names_not_ready := by decide
  peers_named := by decide
  peers_symm := by decide

/-- A worker gets ready, and serves the request of a client. -/
def percentTask : List Label :=
  let self : Frame := [0x25, 0x25]
  [.worker self [0, 1] .start, .broker self (.poll true false false),
    .broker self (.localbe [0, 1]), .broker self .noStatus, .client self [0, 2] .start,
    .client self [0, 2] (.send 7), .broker self (.localfe [0, 2] 0), .broker self .publish,
    .worker self [0, 1] .receive, .worker self [0, 1] .reply, .broker self (.poll true false false),
    .broker self (.localbe [0, 1]), .client self [0, 2] .receive]

/-- The request goes out, and comes back, with one of the two percent signs, and the client
fails its assertion over the first reply. -/
theorem percent_name_aborts :
    ∃ s c, Reachable (prototype .posix percentName) s ∧ s.client ([0x25, 0x25], [0, 2]) = some c ∧
      c.sent = [taskId [0x25, 0x25] 7] ∧ c.phase = .aborted := by
  have ran : (((prototype .posix percentName).exec (prototype .posix percentName).start
      percentTask).bind fun s => s.client ([0x25, 0x25], [0, 2])) =
        some ⟨.aborted, [taskId [0x25, 0x25] 7], []⟩ := by decide
  obtain ⟨s, done, found⟩ := Option.bind_eq_some_iff.mp ran
  exact ⟨s, _, Reachable.start.exec done, found, rfl, rfl⟩

end ZmqPractices.Peering
