import ZmqPractices.StatusFlow.System

/-!
What the programs print was published.

A program that reads is never out of step with the two parts of a status, so that what is
seen of the programs is a feed. From each connection they print, in order, some of what its
publisher has published, with the publisher's name before each number.
-/

namespace ZmqPractices.StatusFlow

open Czmq Lib

/-! ### Half a status -/

/-- What a program holds of a message before each of its calls. -/
inductive InMessage (name : Frame) : Party → Prop
  | polling {lines : List Line} {reports : List Nat} :
      InMessage name ⟨.polling, [], [], lines, reports⟩
  | named {connection : Nat} {peerName available : Frame} {lines : List Line} {reports : List Nat}
      (nulFree : NulFree available) :
      InMessage name ⟨.named connection peerName, [], [available], lines, reports⟩
  | reporting {available : Nat} {lines : List Line} {reports : List Nat} (few : available ≤ 10) :
      InMessage name ⟨.reporting available, [name], [], lines, reports⟩

variable {Node : Type} [DecidableEq Node] {setup : Setup Node} {s s' : State Node}

/-- Nobody is out of step with the parts of a message, and the numbers are those of
`rand () % 11`. -/
structure InStep (setup : Setup Node) (s : State Node) : Prop where
  parties : ∀ node, InMessage (setup.name node) (s.party node)
  few : ∀ node, ∀ available ∈ (s.party node).reports, available ≤ 10

/-- What the publishers are and how the others are connected to them. -/
structure Setup.Sound (setup : Setup Node) : Prop where
  plain : ∀ node, (setup.binds node).isSome → Plain (setup.name node)
  unique : ∀ q i p p', setup.Carries q i p → setup.Carries q i p' → p = p'

theorem InStep.set (inStep : InStep setup s) (node : Node) {party : Party}
    (inMessage : InMessage (setup.name node) party)
    (few : ∀ available ∈ party.reports, available ≤ 10) (queue : Node → Nat → List Msg) :
    InStep setup { s.setParty node party with queue := queue } where
  parties other := by
    by_cases same : other = node
    · subst same
      simpa only [State.setParty, Function.update_self] using inMessage
    · simpa only [State.setParty, Function.update_of_ne same] using inStep.parties other
  few other := by
    by_cases same : other = node
    · subst same
      simpa only [State.setParty, Function.update_self] using few
    · simpa only [State.setParty, Function.update_of_ne same] using inStep.few other

/-! ### The feed -/

theorem asFeed_set (s : State Node) (node : Node) (party : Party) (queue : Node → Nat → List Msg) :
    ({ s.setParty node party with queue := queue } : State Node).asFeed setup =
      { said := Function.update (s.asFeed setup).said node (party.reports.map (setup.status node))
        queue := queue
        heard := Function.update (s.asFeed setup).heard node party.heard } := by
  apply Feed.ext
  · funext other
    by_cases same : other = node
    · subst same
      simp [State.asFeed, State.setParty]
    · simp [State.asFeed, State.setParty, same]
  · rfl
  · funext other
    by_cases same : other = node
    · subst same
      simp [State.asFeed, State.setParty]
    · simp [State.asFeed, State.setParty, same]

/-- A step that nobody hears. -/
theorem asFeed_hidden {node : Node} {party : Party}
    (reports : party.reports = (s.party node).reports)
    (heard : party.heard = (s.party node).heard) :
    ({ s.setParty node party with queue := s.queue } : State Node).asFeed setup =
      s.asFeed setup := by
  have said : party.reports.map (setup.status node) = (s.asFeed setup).said node := by
    rw [reports]
    rfl
  have heard : party.heard = (s.asFeed setup).heard node := heard
  rw [asFeed_set, said, heard, Function.update_eq_self, Function.update_eq_self]
  rfl

omit [DecidableEq Node] in
/-- A message on a connection is a status of the publisher it is connected to. -/
theorem status_of_queue (inOrder : Feed.InOrder setup.Carries (s.asFeed setup)) {node : Node}
    {connection : Nat} {msg : Msg} (mem : msg ∈ s.queue node connection) :
    ∃ publisher available, setup.Carries node connection publisher ∧
      msg = setup.status publisher available := by
  by_cases carried : ∃ publisher, setup.Carries node connection publisher
  · obtain ⟨publisher, carried⟩ := carried
    have said := (inOrder.sublist node connection publisher carried).subset
      (List.mem_append_right _ mem)
    obtain ⟨available, -, rfl⟩ := List.mem_map.mp said
    exact ⟨publisher, available, carried, rfl⟩
  · have empty := inOrder.silent node connection fun p here => carried ⟨p, here⟩
    have nothing : s.queue node connection = [] := (List.append_eq_nil_iff.mp empty).2
    rw [nothing] at mem
    cases mem

/-- A program reads what was published, part by part. -/
theorem step_recv (sound : setup.Sound) (inOrder : Feed.InOrder setup.Carries (s.asFeed setup))
    (inStep : InStep setup s) {node : Node} {connection : Nat}
    (taken : step setup s (.recv node connection) = some s') :
    InStep setup s' ∧ (s'.asFeed setup = s.asFeed setup ∨
      ∃ l, Feed.step setup.Carries (s.asFeed setup) l = some (s'.asFeed setup)) := by
  obtain ⟨⟨part, parts, queue⟩, got, taken⟩ := Option.bind_eq_some_iff.mp taken
  obtain ⟨party, read, rfl⟩ := Option.map_eq_some_iff.mp taken
  have inMessage := inStep.parties node
  have few := inStep.few node
  obtain ⟨before, is⟩ : ∃ party, s.party node = party := ⟨_, rfl⟩
  rw [is] at inMessage got read few
  cases inMessage with
  | @polling lines reports =>
      have next := recvPart_nil.mp got
      cases waiting : s.queue node connection with
      | nil =>
          rw [waiting] at next
          cases next
      | cons msg msgs =>
          rw [waiting] at next
          obtain ⟨rfl, rfl⟩ := Prod.mk.inj (Option.some.inj next)
          have mem : part :: parts ∈ s.queue node connection := waiting ▸ List.mem_cons_self
          obtain ⟨publisher, available, ⟨endpoint, bound, -⟩, same⟩ := status_of_queue inOrder mem
          obtain ⟨rfl, rfl⟩ := List.cons.inj same
          have plain := sound.plain publisher (Option.isSome_iff_exists.mpr ⟨endpoint, bound⟩)
          obtain rfl := Option.some.inj read
          refine ⟨inStep.set node (.named (zero_not_mem_printed available)) few _,
            .inr ⟨.take node connection, ?_⟩⟩
          have queued : (s.asFeed setup).queue node connection =
              setup.status publisher available :: msgs := waiting
          have said : reports.map (setup.status node) = (s.asFeed setup).said node := by
            simp only [State.asFeed, is]
          have heard : (s.asFeed setup).heard node =
              Party.heard ⟨.polling, [], [], lines, reports⟩ := by
            simp only [State.asFeed, is]
          rw [asFeed_set, said, Function.update_eq_self, Feed.step, queued, heard]
          simp [Party.heard, plain.zstrRecv, Setup.status, State.asFeed]
  | @named connection' peerName available lines reports nulFree =>
      obtain ⟨rfl, rfl, rfl⟩ : part = available ∧ parts = [] ∧ queue = s.queue := by
        simpa [eq_comm] using got
      obtain rfl := Option.some.inj read
      refine ⟨inStep.set node .polling few _, .inl (asFeed_hidden ?_ ?_)⟩
      · rw [is]
      · rw [is]
        simp [Party.heard, zframeStrdup_of_nulFree nulFree]
  | reporting => cases read

/-- A program publishes its name and number as one message. -/
theorem step_sendf (inStep : InStep setup s) {node : Node}
    (taken : step setup s (.sendf node) = some s') :
    InStep setup s' ∧ ∃ l, Feed.step setup.Carries (s.asFeed setup) l = some (s'.asFeed setup) := by
  have inMessage := inStep.parties node
  have few := inStep.few node
  obtain ⟨before, is⟩ : ∃ party, s.party node = party := ⟨_, rfl⟩
  rw [is] at inMessage few
  cases inMessage with
  | @reporting available lines reports small =>
      simp only [step, is, Option.some.injEq] at taken
      subst taken
      refine ⟨inStep.set node .polling ?_ _, .publish node (setup.status node available), ?_⟩
      · intro k mem
        rcases List.mem_append.mp mem with old | new
        · exact few k old
        · exact List.mem_singleton.mp new ▸ small
      · have said : (s.asFeed setup).said node = reports.map (setup.status node) := by
          simp only [State.asFeed, is]
        have heard : (s.asFeed setup).heard node =
            Party.heard ⟨.polling, [], [], lines, reports ++ [available]⟩ := by
          simp only [State.asFeed, is]
          rfl
        rw [asFeed_set, ← heard, Function.update_eq_self, Feed.step, said, List.map_append]
        rfl
  | polling | named => simp [step, is] at taken

theorem step_follows (sound : setup.Sound) (inOrder : Feed.InOrder setup.Carries (s.asFeed setup))
    (inStep : InStep setup s) {l : Label Node} (taken : step setup s l = some s') :
    InStep setup s' ∧ (s'.asFeed setup = s.asFeed setup ∨
      ∃ l, Feed.step setup.Carries (s.asFeed setup) l = some (s'.asFeed setup)) := by
  cases l with
  | recv node connection => exact step_recv sound inOrder inStep taken
  | sendm node rand =>
      obtain ⟨⟨polling, publishes⟩, taken⟩ := Option.ite_none_right_eq_some.mp taken
      obtain ⟨frame, sent, rfl⟩ := Option.map_eq_some_iff.mp taken
      rw [(sound.plain node publishes).zstrSend] at sent
      obtain rfl := Option.some.inj sent
      have inMessage := inStep.parties node
      have few := inStep.few node
      obtain ⟨before, is⟩ : ∃ party, s.party node = party := ⟨_, rfl⟩
      rw [is] at inMessage polling few
      cases inMessage with
      | polling =>
          have small : rand % 11 ≤ 10 := Nat.le_of_lt_succ (Nat.mod_lt rand (by decide))
          rw [is]
          exact ⟨inStep.set node (.reporting small) few s.queue,
            .inl (asFeed_hidden (by rw [is]) (by rw [is]; rfl))⟩
      | named | reporting => cases polling
  | sendf node =>
      obtain ⟨inStep', moved⟩ := step_sendf inStep taken
      exact ⟨inStep', .inr moved⟩
  | lose node connection position =>
      obtain rfl := Option.some.inj taken
      exact ⟨⟨inStep.parties, inStep.few⟩, .inr ⟨.lose node connection position, rfl⟩⟩

/-- What is seen of the programs is a feed, and nobody is out of step. -/
theorem inStep_of_reachable (sound : setup.Sound) (reach : Reachable (statusFlow setup) s) :
    Reachable (Feed.system setup.Carries) (s.asFeed setup) ∧ InStep setup s := by
  refine reach.invariant
    (fun s => Reachable (Feed.system setup.Carries) (s.asFeed setup) ∧ InStep setup s)
    ⟨.start, fun _ => .polling, fun _ _ mem => absurd mem List.not_mem_nil⟩ ?_
  rintro s l s' ⟨seen, inStep⟩ taken
  obtain ⟨inStep', still | ⟨k, moved⟩⟩ :=
    step_follows sound (Feed.inOrder_of_reachable sound.unique seen) inStep taken
  · exact ⟨still ▸ seen, inStep'⟩
  · exact ⟨seen.next moved, inStep'⟩

/-! ### Lines -/

/-- The message that a line is printed of. -/
def Line.msg (line : Line) : Msg := [line.peerName, line.available]

theorem Party.heard_eq (party : Party) : ∃ rest,
    party.heard = party.lines.map (fun line => (line.connection, line.msg)) ++ rest := ⟨_, rfl⟩

omit [DecidableEq Node] in
/-- What is printed of a connection was heard there. -/
theorem printed_sublist (s : State Node) (node : Node) (connection : Nat) :
    (((s.party node).lines.filter fun line => line.connection = connection).map
      Line.msg).Sublist ((s.asFeed setup).heardOn node connection) := by
  obtain ⟨rest, heard⟩ := (s.party node).heard_eq
  have heard : (s.asFeed setup).heard node = _ := heard
  rw [Feed.heardOn, heard, List.filter_append, List.map_append, List.filter_map, List.map_map]
  exact List.sublist_append_left _ _

/-- From each connection a program prints some of what was published there, in order. -/
theorem lines_sublist (sound : setup.Sound) (reach : Reachable (statusFlow setup) s) (node : Node) :
    (∀ line ∈ (s.party node).lines, ∃ publisher, setup.Carries node line.connection publisher ∧
      line.peerName = setup.name publisher) ∧
    ∀ connection publisher, setup.Carries node connection publisher →
      (((s.party node).lines.filter fun line => line.connection = connection).map Line.msg).Sublist
        ((s.party publisher).reports.map (setup.status publisher)) := by
  obtain ⟨seen, -⟩ := inStep_of_reachable sound reach
  have inOrder := Feed.inOrder_of_reachable sound.unique seen
  have here (connection : Nat) := (printed_sublist s node connection).trans
    (List.sublist_append_left ((s.asFeed setup).heardOn node connection)
      ((s.asFeed setup).queue node connection))
  constructor
  · intro line mem
    have mem : line.msg ∈ _ := (here line.connection).subset
      (List.mem_map_of_mem (List.mem_filter.mpr ⟨mem, decide_eq_true rfl⟩))
    by_cases carried : ∃ publisher, setup.Carries node line.connection publisher
    · obtain ⟨publisher, carried⟩ := carried
      have said := (inOrder.sublist node line.connection publisher carried).subset mem
      obtain ⟨available, -, same⟩ := List.mem_map.mp said
      exact ⟨publisher, carried, (List.cons.inj same).1.symm⟩
    · rw [inOrder.silent node line.connection fun p here => carried ⟨p, here⟩] at mem
      cases mem
  · intro connection publisher carried
    exact (here connection).trans (inOrder.sublist node connection publisher carried)

/-- The numbers among them are numbers its publisher has published, in order. -/
theorem available_sublist (sound : setup.Sound) (reach : Reachable (statusFlow setup) s)
    {node : Node} {connection : Nat} {publisher : Node}
    (carried : setup.Carries node connection publisher) :
    (((s.party node).lines.filter fun line => line.connection = connection).map
      Line.available).Sublist ((s.party publisher).reports.map (printed 10)) := by
  have sublist := ((lines_sublist sound reach node).2 connection publisher carried).map
    fun msg => msg.getD 1 []
  rw [List.map_map, List.map_map] at sublist
  exact sublist

/-! ### The brokers -/

section

variable {brokers : List Frame} {peers : Frame → List Frame}

/-- A broker hears a broker on the connections to that name. -/
theorem carries_stateFlow {self : Frame} {connection : Nat} {peer : Frame} :
    (stateFlow brokers peers).Carries self connection peer ↔
      self ∈ brokers ∧ peer ∈ brokers ∧ (peers self)[connection]? = some peer := by
  simp only [Setup.Carries, stateFlow]
  constructor
  · rintro ⟨endpoint, bound, connected⟩
    by_cases publishes : peer ∈ brokers
    · by_cases runs : self ∈ brokers
      · rw [if_pos publishes] at bound
        obtain rfl := Option.some.inj bound
        rw [if_pos runs, List.getElem?_map] at connected
        obtain ⟨name, named, same⟩ := Option.map_eq_some_iff.mp connected
        exact ⟨runs, publishes, Peering.stateEndpoint_injective same ▸ named⟩
      · rw [if_neg runs] at connected
        cases connected
    · rw [if_neg publishes] at bound
      cases bound
  · rintro ⟨runs, publishes, named⟩
    refine ⟨endpointsState peer, ?_, ?_⟩
    · rw [if_pos publishes]
      rfl
    · rw [if_pos runs, List.getElem?_map, named]
      rfl

theorem sound_stateFlow (plain : ∀ broker ∈ brokers, Plain broker) :
    (stateFlow brokers peers).Sound where
  plain broker binds := by
    by_cases runs : broker ∈ brokers
    · exact plain broker runs
    · have none : (stateFlow brokers peers).binds broker = none := if_neg runs
      rw [none] at binds
      cases binds
  unique _ _ _ _ carried carried' :=
    Option.some.inj
      ((carries_stateFlow.mp carried).2.2.symm.trans (carries_stateFlow.mp carried').2.2)

/-- The connection of a line is to a broker of the name in it. -/
theorem named_stateFlow (plain : ∀ broker ∈ brokers, Plain broker) {s : State Frame}
    (reach : Reachable (statusFlow (stateFlow brokers peers)) s) {self : Frame} {line : Line}
    (mem : line ∈ (s.party self).lines) :
    (stateFlow brokers peers).Carries self line.connection line.peerName := by
  obtain ⟨publisher, carried, name⟩ :=
    (lines_sublist (sound_stateFlow plain) reach self).1 line mem
  have name : line.peerName = publisher := name
  exact name ▸ carried

/-- Where the peers are distinct, the lines under a name are those of its connection. -/
theorem filter_peerName {self : Frame} {lines : List Line} (distinct : (peers self).Nodup)
    (named : ∀ line ∈ lines, (peers self)[line.connection]? = some line.peerName) {line : Line}
    (mem : line ∈ lines) :
    (lines.filter fun other => other.peerName = line.peerName) =
      lines.filter fun other => other.connection = line.connection := by
  have place := named line mem
  refine List.filter_congr fun other mem' => ?_
  have place' := named other mem'
  rw [decide_eq_decide]
  constructor
  · intro name
    rw [name] at place'
    have bound := (List.getElem?_eq_some_iff.mp place').1
    exact (List.getElem?_inj bound distinct).mp (place'.trans place.symm)
  · intro connection
    rw [connection, place] at place'
    exact (Option.some.inj place').symm

/-- In every run of the brokers, each line a broker prints is of one of its peers, and the
lines of a peer are, in order, some of what that peer has published: numbers of at most 10. -/
theorem status_lines (plain : ∀ broker ∈ brokers, Plain broker) {s : State Frame}
    (reach : Reachable (statusFlow (stateFlow brokers peers)) s) {self : Frame}
    (distinct : (peers self).Nodup) :
    (∀ line ∈ (s.party self).lines, line.peerName ∈ peers self ∧ line.peerName ∈ brokers) ∧
    ∀ peer, (((s.party self).lines.filter fun line => line.peerName = peer).map
        Line.available).Sublist ((s.party peer).reports.map (printed 10)) ∧
      ∀ available ∈ (s.party peer).reports, available ≤ 10 := by
  have sound : (stateFlow brokers peers).Sound := sound_stateFlow plain
  have named : ∀ line ∈ (s.party self).lines,
      line.peerName ∈ brokers ∧ (peers self)[line.connection]? = some line.peerName :=
    fun line mem => (carries_stateFlow.mp (named_stateFlow plain reach mem)).2
  constructor
  · intro line mem
    exact ⟨List.mem_of_getElem? (named line mem).2, (named line mem).1⟩
  · intro peer
    refine ⟨?_, (inStep_of_reachable sound reach).2.few peer⟩
    by_cases printed : ∃ line ∈ (s.party self).lines, line.peerName = peer
    · obtain ⟨line, mem, rfl⟩ := printed
      rw [filter_peerName distinct (fun line mem => (named line mem).2) mem]
      exact available_sublist sound reach (named_stateFlow plain reach mem)
    · have nothing : ((s.party self).lines.filter fun line => line.peerName = peer) = [] := by
        rw [List.filter_eq_nil_iff]
        intro line mem name
        exact printed ⟨line, mem, of_decide_eq_true name⟩
      rw [nothing]
      exact List.nil_sublist _

/-- Two brokers that are each other's peer: one of them publishes twice, its first status is
lost and the second is printed. -/
theorem status_lines_pair :
    let s := stateFlow [[0x41], [0x42]] fun self => if self = [0x41] then [[0x42]] else [[0x41]]
    ∃ t, Reachable (statusFlow s) t ∧ (t.party [0x41]).lines.length = 1 ∧
      ((((t.party [0x41]).lines.filter fun line => line.peerName = [0x42]).map
        Line.available).Sublist ((t.party [0x42]).reports.map (printed 10))) := by
  intro s
  have ran : ((statusFlow s).exec (statusFlow s).start
      [.sendm [0x42] 15, .sendf [0x42], .sendm [0x42] 21, .sendf [0x42], .lose [0x41] 0 0,
        .recv [0x41] 0, .recv [0x41] 0]).map (fun t => (t.party [0x41]).lines.length) =
      some 1 := by decide +kernel
  obtain ⟨t, done, lines⟩ := Option.map_eq_some_iff.mp ran
  have reach := Reachable.start.exec done
  have plain : ∀ broker ∈ [[0x41], [0x42]], Plain broker := by
    intro broker mem
    rcases List.mem_pair.mp mem with rfl | rfl
    · exact ⟨by decide, by decide⟩
    · exact ⟨by decide, by decide⟩
  exact ⟨t, reach, lines, ((status_lines plain reach (by decide)).2 [0x42]).1⟩

end

/-! ### A publisher and its subscribers -/

section

variable {Sub : Type}

theorem carries_pubSub {node : Option Sub} {connection : Nat} {publisher : Option Sub} :
    (pubSub Sub).Carries node connection publisher ↔
      publisher = none ∧ node.isSome ∧ connection = 0 := by
  unfold Setup.Carries pubSub
  cases publisher <;> cases node <;> simp [List.getElem?_singleton, eq_comm]

theorem plain_pubName : Plain pubName := ⟨by decide, by decide⟩

theorem sound_pubSub : (pubSub Sub).Sound where
  plain _ _ := plain_pubName
  unique _ _ _ _ carried carried' :=
    (carries_pubSub.mp carried).1.trans (carries_pubSub.mp carried').1.symm

/-- In every run of `pub.cpp` with any number of `sub.cpp`, each line a subscriber prints is
under the name of the publisher, and its numbers are, in order, some of those published:
numbers of at most 10. -/
theorem pub_lines [DecidableEq Sub] {s : State (Option Sub)}
    (reach : Reachable (statusFlow (pubSub Sub)) s) (sub : Sub) :
    (∀ line ∈ (s.party (some sub)).lines, line.peerName = pubName) ∧
    ((s.party (some sub)).lines.map Line.available).Sublist
      ((s.party none).reports.map (printed 10)) ∧
    ∀ load ∈ (s.party none).reports, load ≤ 10 := by
  have lines := (lines_sublist sound_pubSub reach (some sub)).1
  refine ⟨?_, ?_, (inStep_of_reachable sound_pubSub reach).2.few none⟩
  · intro line mem
    obtain ⟨publisher, -, name⟩ := lines line mem
    exact name
  · have first : ∀ line ∈ (s.party (some sub)).lines, decide (line.connection = 0) = true := by
      intro line mem
      obtain ⟨publisher, carried, -⟩ := lines line mem
      exact decide_eq_true (carries_pubSub.mp carried).2.2
    rw [← List.filter_eq_self.mpr first]
    exact available_sublist sound_pubSub reach (carries_pubSub.mpr ⟨rfl, rfl, rfl⟩)

/-- Of two subscribers, one has printed what the other has still to read. -/
theorem pub_lines_two :
    ∃ s, Reachable (statusFlow (pubSub (Fin 2))) s ∧
      (s.party (some 0)).lines.length = 1 ∧ (s.queue (some 1) 0).length = 1 ∧
      ((s.party (some 0)).lines.map Line.available).Sublist
        ((s.party none).reports.map (printed 10)) := by
  have ran : ((statusFlow (pubSub (Fin 2))).exec (statusFlow (pubSub (Fin 2))).start
      [.sendm none 15, .sendf none, .recv (some 0) 0, .recv (some 0) 0]).map
        (fun s => ((s.party (some 0)).lines.length, (s.queue (some 1) 0).length)) =
      some (1, 1) := by decide +kernel
  obtain ⟨s, done, lengths⟩ := Option.map_eq_some_iff.mp ran
  obtain ⟨lines, waiting⟩ := Prod.mk.inj lengths
  have reach := Reachable.start.exec done
  exact ⟨s, reach, lines, waiting, (pub_lines reach 0).2.1⟩

end

end ZmqPractices.StatusFlow
