import ZmqPractices.Peering.Routing

/-!
The state flow between prototype brokers, over the connections that the set-up of
`main` makes.

Each broker binds `statebe` to its state endpoint and connects `statefe` once for each
of its peers; but the endpoint it connects to is its own. So what a broker reads as the
capacity of the cloud is what it published itself (`heard_own`), and the state flow
carries a peer's capacity only in so far as it carries none (`state_flow_iff`).
-/

namespace ZmqPractices.Peering

open Czmq Lib

/-! ### Endpoints -/

/-- `ipc:///tmp/`. -/
def ipcTmp : Frame := [0x69, 0x70, 0x63, 0x3a, 0x2f, 0x2f, 0x2f, 0x74, 0x6d, 0x70, 0x2f]

/-- `.ipc`. -/
def dotIpc : Frame := [0x2e, 0x69, 0x70, 0x63]

/-- `IMPLEMENT_ENDPOINT (xxx, ..)`: `sprintf (buf, "ipc:///tmp/%s-%s.ipc", self, #xxx)`. -/
def implementEndpoint (xxx self : Frame) : Frame := ipcTmp ++ self ++ [0x2d] ++ xxx ++ dotIpc

/-- `IMPLEMENT_ENDPOINT (state, 0)`. -/
def stateEndpoint (self : Frame) : Frame :=
  implementEndpoint [0x73, 0x74, 0x61, 0x74, 0x65] self

/-- The endpoints that the loop over the peers connects `statefe` to. -/
def statefeEndpoints (self : Frame) (peers : List Frame) : List Frame :=
  peers.map fun _ => stateEndpoint self

/-- The endpoints of one kind keep the names apart. -/
theorem implementEndpoint_injective (xxx : Frame) :
    Function.Injective (implementEndpoint xxx) := by
  intro a b same
  have same := List.append_cancel_right (List.append_cancel_right same)
  exact List.append_cancel_left (List.append_cancel_right same)

theorem stateEndpoint_injective : Function.Injective stateEndpoint :=
  implementEndpoint_injective _

/-! ### The system -/

/-- Any set of brokers in their loops, with what is on its way to the `statefe` of each:
the name and the capacity of a status message. `heard` records, for the statements only,
from whom the broker has its `cloud_capacity`. -/
structure Flow where
  loop : Frame → Loop
  status : Net Frame (Frame × Int)
  heard : Frame → Option Frame

/-- A broker reads a status message or takes another step of its loop, or a status
message is lost on its way. -/
inductive FlowStep where
  | statefe (self : Frame)
  | broker (self : Frame) (step : LoopStep)
  | lose (packet : Nat)
deriving DecidableEq, Repr

/-- The brokers that are started, each with its list of peers. -/
structure Setup where
  names : List Frame
  peers : Frame → List Frame

/-- What `publisher` publishes reaches the `statefe` of each broker, once for each of its
connections to the endpoint `publisher` has bound. -/
def Setup.deliver (setup : Setup) (publisher : Frame) (capacity : Int) : Net Frame (Frame × Int) :=
  setup.names.flatMap fun self =>
    ((statefeEndpoints self (setup.peers self)).filter (· = stateEndpoint publisher)).map
      fun _ => (self, publisher, capacity)

/-- What a broker that takes this step sends on `statebe`. -/
def Setup.publish (setup : Setup) (b : Broker) : LoopStep → Net Frame (Frame × Int)
  | .publish => (broadcast b).toList.flatMap (setup.deliver b.self)
  | _ => []

def Flow.setLoop (s : Flow) (self : Frame) (loop : Loop) : Flow :=
  { s with loop := Function.update s.loop self loop }

def flowStep (setup : Setup) (s : Flow) : FlowStep → Option Flow
  | .statefe self =>
      if self ∈ setup.names then do
        let ((name, capacity), status) ← Net.recv self s.status
        let (loop, _) ← (s.loop self).next (.statefe capacity)
        return { s.setLoop self loop with
          status := status
          heard := Function.update s.heard self (some name) }
      else none
  | .broker self step =>
      match step with
      | .statefe _ => none
      | step =>
          if self ∈ setup.names then
            ((s.loop self).next step).map fun (loop, _) =>
              { s.setLoop self loop with
                status := s.status ++ setup.publish (s.loop self).broker step }
          else none
  | .lose packet => some { s with status := s.status.eraseIdx packet }

/-- The brokers, each in its loop, over the state flow. -/
def flow (setup : Setup) : System Flow FlowStep where
  start := ⟨fun self => .start self (setup.peers self), [], fun _ => none⟩
  step := flowStep setup

/-! ### Every broker runs its loop -/

/-- What a step leaves, by its label. -/
inductive FlowMove (setup : Setup) (s : Flow) : FlowStep → Flow → Prop where
  | statefe {self name : Frame} {capacity : Int} {status : Net Frame (Frame × Int)} {loop : Loop}
      {out : Option Output} (named : self ∈ setup.names)
      (received : Net.recv self s.status = some ((name, capacity), status))
      (done : (s.loop self).next (.statefe capacity) = some (loop, out)) :
      FlowMove setup s (.statefe self)
        { s.setLoop self loop with
          status := status
          heard := Function.update s.heard self (some name) }
  | broker {self : Frame} {step : LoopStep} {loop : Loop} {out : Option Output}
      (named : self ∈ setup.names) (elsewhere : ∀ capacity, step ≠ .statefe capacity)
      (done : (s.loop self).next step = some (loop, out)) :
      FlowMove setup s (.broker self step)
        { s.setLoop self loop with
          status := s.status ++ setup.publish (s.loop self).broker step }
  | lose (packet : Nat) :
      FlowMove setup s (.lose packet) { s with status := s.status.eraseIdx packet }

variable {setup : Setup} {s s' : Flow} {self : Frame} {label : FlowStep}

theorem flowStep_move (taken : flowStep setup s label = some s') : FlowMove setup s label s' := by
  cases label with
  | statefe self =>
      simp only [flowStep] at taken
      split at taken
      · rename_i named
        obtain ⟨⟨⟨name, capacity⟩, status⟩, received, taken⟩ := Option.bind_eq_some_iff.mp taken
        obtain ⟨⟨loop, out⟩, done, taken⟩ := Option.bind_eq_some_iff.mp taken
        obtain rfl := Option.some.inj taken
        exact .statefe named received done
      · cases taken
  | broker self step =>
      simp only [flowStep] at taken
      split at taken
      · cases taken
      · rename_i elsewhere
        split at taken
        · rename_i named
          obtain ⟨⟨loop, out⟩, done, rfl⟩ := Option.map_eq_some_iff.mp taken
          exact .broker named elsewhere done
        · cases taken
  | lose packet =>
      obtain rfl := Option.some.inj taken
      exact .lose packet

theorem loop_setLoop_self (s : Flow) (self : Frame) (loop : Loop) :
    (s.setLoop self loop).loop self = loop := Function.update_self ..

theorem loop_setLoop_ne (s : Flow) {self other : Frame} (differ : other ≠ self) (loop : Loop) :
    (s.setLoop self loop).loop other = s.loop other := Function.update_of_ne differ ..

/-- A step of the system is a step of a broker's own loop, or leaves it alone. -/
theorem FlowMove.loop (move : FlowMove setup s label s') (other : Frame) :
    s'.loop other = s.loop other ∨ ∃ step out, LoopMove (s.loop other) step (s'.loop other) out ∧
      (loop other (setup.peers other)).step (s.loop other) step = some (s'.loop other) := by
  have taken : ∀ {self : Frame} {step : LoopStep} {after : Loop} {out : Option Output},
      (s.loop self).next step = some (after, out) →
      (s.setLoop self after).loop other = s.loop other ∨
        ∃ step out, LoopMove (s.loop other) step ((s.setLoop self after).loop other) out ∧
          (Peering.loop other (setup.peers other)).step (s.loop other) step =
            some ((s.setLoop self after).loop other) := by
    intro self step after out done
    by_cases here : other = self
    · subst here
      rw [loop_setLoop_self]
      exact .inr ⟨step, out, next_move done, loop_step done⟩
    · exact .inl (loop_setLoop_ne s here after)
  cases move with
  | statefe named received done => exact taken done
  | broker named elsewhere done => exact taken done
  | lose packet => exact .inl rfl

/-- What is proved of one loop holds of every broker of the system. -/
theorem flow_reachable (reach : Reachable (flow setup) s) (self : Frame) :
    Reachable (loop self (setup.peers self)) (s.loop self) := by
  obtain ⟨l, loops, rfl⟩ : ∃ l, Reachable (loop self (setup.peers self)) l ∧ s.loop self = l := by
    apply reach.simulated (fun s l => s.loop self = l) rfl
    rintro s label s' _ _ rfl taken
    rcases (flowStep_move taken).loop self with same | ⟨step, out, move, taken⟩
    · exact .inl same
    · exact .inr ⟨step, _, taken, rfl⟩
  exact loops

/-! ### Whom a broker hears -/

/-- A broker keeps its name, and what it has published stays published. -/
theorem LoopMove.kept {s s' : Loop} {step : LoopStep} {out : Option Output}
    (move : LoopMove s step s' out) :
    s'.broker.self = s.broker.self ∧ s.published ⊆ s'.published ∧
      ((∀ capacity, step ≠ .statefe capacity) →
        s'.broker.cloudCapacity = s.broker.cloudCapacity) := by
  cases move with
  | statefe capacity at_ connected =>
      exact ⟨rfl, List.Subset.refl _, fun elsewhere => absurd rfl (elsewhere _)⟩
  | publish at_ => exact ⟨rfl, List.subset_append_right _ _, fun _ => rfl⟩
  | _ => exact ⟨rfl, List.Subset.refl _, fun _ => rfl⟩

theorem cloudCapacity_of_statefe {s s' : Loop} {capacity : Int} {out : Option Output}
    (move : LoopMove s (.statefe capacity) s' out) : s'.broker.cloudCapacity = capacity := by
  cases move with
  | statefe capacity at_ connected => rfl

theorem published_of_publish {s s' : Loop} {out : Option Output}
    (move : LoopMove s .publish s' out) :
    s'.published = (broadcast s.broker).toList ++ s.published := by
  cases move with
  | publish at_ => rfl

/-- A broker's own endpoint is the only one it hears, so what it sends on `statebe` comes
back to it alone. -/
theorem mem_publish {b : Broker} {step : LoopStep} {p : Frame × Frame × Int}
    (mem : p ∈ setup.publish b step) :
    step = .publish ∧ p.1 = b.self ∧ p.2.1 = b.self ∧ broadcast b = some p.2.2 := by
  cases step with
  | publish =>
      obtain ⟨capacity, sent, mem⟩ := List.mem_flatMap.mp mem
      obtain ⟨self, _, mem⟩ := List.mem_flatMap.mp mem
      obtain ⟨endpoint, connected, rfl⟩ := List.mem_map.mp mem
      obtain ⟨connected, same⟩ := List.mem_filter.mp connected
      obtain ⟨_, _, rfl⟩ := List.mem_map.mp connected
      have same := stateEndpoint_injective (of_decide_eq_true same)
      exact ⟨rfl, same, rfl, Option.mem_toList.mp sent⟩
  | _ => cases mem

/-- Every status message on its way to a broker is one of its own, and whom it has its
`cloud_capacity` from, where it has one, is itself. -/
structure Own (s : Flow) : Prop where
  named : ∀ self, (s.loop self).broker.self = self
  status : ∀ p ∈ s.status, p.2.1 = p.1 ∧ p.2.2 ∈ (s.loop p.1).published
  heard : ∀ self, (s.loop self).broker.cloudCapacity = 0 ∨ s.heard self = some self

/-- A broker keeps its name, and what it has published stays published. -/
theorem FlowMove.kept (move : FlowMove setup s label s') (self : Frame) :
    (s'.loop self).broker.self = (s.loop self).broker.self ∧
      (s.loop self).published ⊆ (s'.loop self).published := by
  rcases move.loop self with same | ⟨step, out, move, _⟩
  · rw [same]
    exact ⟨rfl, List.Subset.refl _⟩
  · exact ⟨move.kept.1, move.kept.2.1⟩

theorem Own.move (before : Own s) (move : FlowMove setup s label s') : Own s' := by
  have named : ∀ self, (s'.loop self).broker.self = self := fun self =>
    (move.kept self).1.trans (before.named self)
  have earlier : ∀ p ∈ s.status, p.2.1 = p.1 ∧ p.2.2 ∈ (s'.loop p.1).published := fun p mem =>
    ⟨(before.status p mem).1, (move.kept p.1).2 (before.status p mem).2⟩
  refine ⟨named, ?_, ?_⟩
  · cases move with
    | statefe _ received done =>
        exact fun p mem => earlier p (Net.mem_of_mem_recv received mem)
    | @broker self step loop out _ elsewhere done =>
        intro p mem
        rcases List.mem_append.mp mem with mem | mem
        · exact earlier p mem
        · obtain ⟨rfl, own, publisher, sent⟩ := mem_publish mem
          obtain ⟨name, sender, capacity⟩ := p
          obtain rfl : name = self := own.trans (before.named self)
          refine ⟨publisher.trans own.symm, ?_⟩
          show capacity ∈ ((s.setLoop name loop).loop name).published
          rw [loop_setLoop_self, published_of_publish (next_move done)]
          exact List.mem_append_left _ (Option.mem_toList.mpr sent)
    | lose packet => exact fun p mem => earlier p (List.mem_of_mem_eraseIdx mem)
  · cases move with
    | @statefe self name capacity status loop out _ received done =>
        intro other
        by_cases here : other = self
        · obtain rfl : name = self := (before.status _ (Net.mem_of_recv received)).1
          subst here
          exact .inr (Function.update_self ..)
        · show ((s.setLoop self loop).loop other).broker.cloudCapacity = 0 ∨
            Function.update s.heard self (some name) other = some other
          rw [loop_setLoop_ne s here, Function.update_of_ne here]
          exact before.heard other
    | @broker self step loop out named' elsewhere done =>
        intro other
        show ((s.setLoop self loop).loop other).broker.cloudCapacity = 0 ∨ _
        by_cases here : other = self
        · subst here
          rw [loop_setLoop_self, (next_move done).kept.2.2 elsewhere]
          exact before.heard other
        · rw [loop_setLoop_ne s here]
          exact before.heard other
    | lose packet => exact before.heard

/-- **A broker hears only itself.** In every reachable state, the status messages on
their way to a broker were published by that broker, and so was the capacity that it
takes for the cloud's. -/
theorem heard_own (reach : Reachable (flow setup) s) : Own s := by
  apply reach.invariant Own
  · exact ⟨fun _ => rfl, by simp [flow], fun _ => .inl rfl⟩
  · exact fun s label s' before taken => before.move (flowStep_move taken)

/-! ### Whether the state flow carries a peer's capacity -/

/-- The `cloud_capacity` of every broker is 0 or a value that another broker, one of its
listed peers, has published. -/
def FromPeers (setup : Setup) (s : Flow) : Prop :=
  ∀ self ∈ setup.names, (s.loop self).broker.cloudCapacity = 0 ∨
    ∃ peer ∈ setup.peers self, peer ≠ self ∧ s.heard self = some peer ∧
      (s.loop self).broker.cloudCapacity ∈ (s.loop peer).published

/-- A status message that is read says that there is no capacity. -/
def SaysNone (s : Flow) : FlowStep → Prop
  | .statefe self => ∀ p status, Net.recv self s.status = some (p, status) → p.2 = 0
  | _ => True

/-- What a broker heard from itself is no peer's capacity. -/
theorem Own.fromPeers_iff (own : Own s) :
    FromPeers setup s ↔ ∀ self ∈ setup.names, (s.loop self).broker.cloudCapacity = 0 := by
  constructor
  · intro peers self named
    rcases peers self named with none | ⟨peer, _, other, heard, _⟩
    · exact none
    · rcases own.heard self with none | itself
      · exact none
      · exact absurd (Option.some.inj (heard.symm.trans itself)) other
  · exact fun none self named => .inl (none self named)

/-- One step keeps every `cloud_capacity` a peer's exactly when no capacity is read. -/
theorem Own.fromPeers_move (own : Own s) (before : FromPeers setup s)
    (move : FlowMove setup s label s') : FromPeers setup s' ↔ SaysNone s label := by
  have none := own.fromPeers_iff.mp before
  rw [(own.move move).fromPeers_iff]
  cases move with
  | @statefe self name capacity status loop out named received done =>
      have read : loop.broker.cloudCapacity = capacity := cloudCapacity_of_statefe (next_move done)
      constructor
      · intro after p status' same
        obtain ⟨rfl, -⟩ := Prod.mk.inj (Option.some.inj (received.symm.trans same))
        have here : ((s.setLoop self loop).loop self).broker.cloudCapacity = 0 := after self named
        rwa [loop_setLoop_self, read] at here
      · intro silent other named'
        show ((s.setLoop self loop).loop other).broker.cloudCapacity = 0
        by_cases here : other = self
        · subst here
          rw [loop_setLoop_self, read]
          exact silent _ _ received
        · rw [loop_setLoop_ne s here]
          exact none other named'
  | @broker self step loop out named elsewhere done =>
      refine ⟨fun _ => trivial, fun _ other named' => ?_⟩
      show ((s.setLoop self loop).loop other).broker.cloudCapacity = 0
      by_cases here : other = self
      · subst here
        rw [loop_setLoop_self, (next_move done).kept.2.2 elsewhere]
        exact none other named'
      · rw [loop_setLoop_ne s here]
        exact none other named'
  | lose packet => exact ⟨fun _ => trivial, fun _ => none⟩

/-- **The state flow carries a peer's capacity only when it carries none.** For any set of
brokers and any peer lists, the `cloud_capacity` of every broker is 0 or the capacity
that a listed peer published, throughout a run, if and only if every status message
that is read in it says 0. -/
theorem state_flow_iff {past : List (Flow × FlowStep)} (run : Run (flow setup) past s) :
    Always (FromPeers setup) past s ↔ EachStep SaysNone past := by
  apply run.exact Own (FromPeers setup) SaysNone
  · exact ⟨⟨fun _ => rfl, by simp [flow], fun _ => .inl rfl⟩, fun _ _ => .inl rfl⟩
  · intro s label s' own before taken
    have move := flowStep_move taken
    exact ⟨own.fromPeers_move before move, fun _ => own.move move⟩

/-- Two brokers that peer with each other. -/
def twoBrokers : Setup where
  names := [[0x41], [0x42]]
  peers self := if self = [0x41] then [[0x42]] else [[0x41]]

/-- The turn in which broker A lists a worker, and publishes that it has one. -/
def firstWorker : List FlowStep :=
  [.broker [0x41] (.poll true false false), .broker [0x41] (.localbe [[0, 1], [], workerReady]),
    .broker [0x41] .noStatus, .broker [0x41] .publish]

/-- What A publishes is on its way to A. -/
theorem state_flow_iff_pair : ∃ (past : List (Flow × FlowStep)) (s : Flow),
    Run (flow twoBrokers) past s ∧ s.status = [([0x41], [0x41], 1)] ∧
      (Always (FromPeers twoBrokers) past s ↔ EachStep SaysNone past) := by
  have ran : ((flow twoBrokers).exec (flow twoBrokers).start firstWorker).map (fun s => s.status) =
      some [([0x41], [0x41], 1)] := by decide
  obtain ⟨s, done, seen⟩ := Option.map_eq_some_iff.mp ran
  obtain ⟨past, run⟩ := Reachable.start.exec done
  exact ⟨past, s, run, seen, state_flow_iff run⟩

/-- A takes its own worker for one of the cloud's, while its peer has published nothing. -/
theorem own_capacity_heard : ∃ s, Reachable (flow twoBrokers) s ∧
    (s.loop [0x41]).broker.cloudCapacity = 1 ∧ s.heard [0x41] = some [0x41] ∧
      (s.loop [0x42]).published = [] ∧ ¬ FromPeers twoBrokers s := by
  have ran : ((flow twoBrokers).exec (flow twoBrokers).start (firstWorker ++
      [.broker [0x41] (.poll false false true), .broker [0x41] .noReply, .statefe [0x41]])).map
        (fun s => ((s.loop [0x41]).broker.cloudCapacity, s.heard [0x41],
          (s.loop [0x42]).published)) =
      some (1, some [0x41], []) := by decide
  obtain ⟨s, done, seen⟩ := Option.map_eq_some_iff.mp ran
  obtain ⟨capacity, seen⟩ := Prod.mk.inj seen
  obtain ⟨heard, silent⟩ := Prod.mk.inj seen
  refine ⟨s, Reachable.start.exec done, capacity, heard, silent, ?_⟩
  intro peers
  rcases peers [0x41] (by decide) with none | ⟨peer, listed, other, itself, _⟩
  · rw [capacity] at none
    cases none
  · exact other (Option.some.inj (itself.symm.trans heard))

end ZmqPractices.Peering
