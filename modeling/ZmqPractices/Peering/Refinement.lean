import ZmqPractices.Peering.Capacity
import ZmqPractices.Peering.StateFlow

/-!
The brokers of the cluster and the broker in its loop are one.

The cluster moves messages between the parties, the loop takes any messages. Each step of
a broker in the cluster is a step of its loop on the messages it finds there
(`brokerStep_takesStep`), so every broker of a reachable cluster is a reachable loop
(`cluster_reachable`), and what is proved of one loop for any messages holds in it. The
subscribers the cluster gives `statebe` are those the set-up of the endpoints makes
(`publish_eq`).
-/

namespace ZmqPractices.Peering

open Czmq Lib

variable {build : Build} {cluster : Cluster} {s s' : State} {self : Frame}

/-- A loop with the variables of the broker and where it stands in its turn. -/
structure Follows (s : State) (name : Frame) (l : Loop) : Prop where
  broker : l.broker = s.broker name
  turn : l.turn = s.turn name

/-- One broker takes a step of its loop, and the others stay as they are. -/
def TakesStep (s : State) (self : Frame) (l : Loop) (s' : State) : Prop :=
  ∃ step l' out, l.next step = some (l', out) ∧
    s'.broker = Function.update s.broker self l'.broker ∧
    s'.turn = Function.update s.turn self l'.turn

theorem Follows.update_broker {l : Loop} (before : Follows s self l) :
    s.broker = Function.update s.broker self l.broker := by
  rw [before.broker, Function.update_eq_self]

/-- A message that the broker finds in a channel is one that its loop is given. -/
theorem route_takesStep {l : Loop} {sender : Frame} {chan : Chan} {turn : Turn}
    {f : Broker → Msg → Option (Broker × Option Output)} (step : Msg → LoopStep)
    (wrap : Broker × Option Output → Loop × Option Output)
    (taken : s.route self sender chan turn f = some s')
    (next : ∀ msg, l.next (step msg) = (f (s.broker self) msg).map wrap)
    (wrapped : ∀ out, (wrap out).1.broker = out.1 ∧ (wrap out).1.turn = turn) :
    TakesStep s self l s' := by
  obtain ⟨msg, net, b, out, _, done, rfl⟩ := route_cases taken
  have next := next (sender :: msg)
  rw [done, Option.map_some] at next
  obtain ⟨broker, turn⟩ := wrapped (b, out)
  refine ⟨step (sender :: msg), (wrap (b, out)).1, (wrap (b, out)).2, next, ?_, ?_⟩
  · rw [broker]
  · rw [turn]

/-- **Each step of a broker in the cluster is a step of its loop.** -/
theorem brokerStep_takesStep {step : BrokerStep} {l : Loop} (counted : Counted cluster s)
    (before : Follows s self l) (taken : brokerStep s self step = some s') :
    TakesStep s self l s' := by
  have turn := before.turn
  simp only [brokerStep] at taken
  split at taken
  · rename_i localbe cloudbe statefe at_
    obtain rfl := Option.some.inj taken
    refine ⟨.poll localbe cloudbe statefe, { l with
      broker := { s.broker self with previousCapacity := (s.broker self).localCapacity }
      turn := .reply localbe cloudbe statefe }, none, ?_, rfl, rfl⟩
    simp only [Loop.next, turn, at_, before.broker]
  · rename_i statefe worker at_
    apply route_takesStep .localbe (l.routed (.status statefe)) taken
    · intro msg
      simp only [Loop.next, turn, at_, before.broker]
    · exact fun _ => ⟨rfl, rfl⟩
  · rename_i statefe peer at_
    apply route_takesStep .cloudbe (l.routed (.status statefe)) taken
    · intro msg
      simp only [Loop.next, turn, at_, before.broker]
    · exact fun _ => ⟨rfl, rfl⟩
  · rename_i at_
    obtain rfl := Option.some.inj taken
    refine ⟨.noReply, { l with turn := .status _ }, none, ?_, before.update_broker, rfl⟩
    simp only [Loop.next, turn, at_]
  · rename_i at_
    obtain ⟨⟨⟨name, capacity⟩, status⟩, received, taken⟩ := Option.bind_eq_some_iff.mp taken
    obtain rfl := Option.some.inj taken
    -- what is read was sent to a broker with peers
    have connected : (s.broker self).peers ≠ [] := by
      intro alone
      have first := Net.on_recv_self received
      rw [counted.status self ((counted.broker self).peers ▸ alone)] at first
      cases first
    refine ⟨.statefe capacity, { l with
      broker := { s.broker self with cloudCapacity := capacity }
      turn := .requests
      unserved := 0
      forwarded := 0 }, none, ?_, rfl, rfl⟩
    simp only [Loop.next, turn, at_, before.broker, if_pos connected]
  · rename_i at_
    obtain rfl := Option.some.inj taken
    refine ⟨.noStatus, { l with turn := .requests }, none, ?_, before.update_broker, rfl⟩
    simp only [Loop.next, turn, at_]
  · rename_i client rand at_
    split at taken
    · rename_i room
      apply route_takesStep (fun msg => .request rand (some msg) none) l.requested taken
      · intro msg
        simp only [Loop.next, turn, at_, before.broker, if_pos room, secondaryPoll]
        rfl
      · exact fun _ => ⟨rfl, turn.trans at_⟩
    · cases taken
  · rename_i peer rand at_
    split at taken
    · rename_i room
      apply route_takesStep (fun msg => .request rand none (some msg)) l.requested taken
      · intro msg
        simp only [Loop.next, turn, at_, before.broker, if_pos room.1, if_pos room.2, secondaryPoll]
        rfl
      · exact fun _ => ⟨rfl, turn.trans at_⟩
    · cases taken
  · rename_i at_
    obtain rfl := Option.some.inj taken
    refine ⟨.publish, { l with
      turn := .poll
      published := (broadcast l.broker).toList ++ l.published }, none, ?_,
      before.update_broker, rfl⟩
    simp only [Loop.next, turn, at_]
  · cases taken

theorem TakesStep.follows {l : Loop} (step : TakesStep s self l s') :
    ∃ step l', (loop self (cluster.peers self)).step l step = some l' ∧ Follows s' self l' := by
  obtain ⟨step, l', out, next, broker, turn⟩ := step
  refine ⟨step, l', loop_step next, ?_, ?_⟩
  · rw [broker, Function.update_self]
  · rw [turn, Function.update_self]

theorem TakesStep.others {l : Loop} (step : TakesStep s self l s') {other : Frame}
    (differ : other ≠ self) : s'.broker other = s.broker other ∧ s'.turn other = s.turn other := by
  obtain ⟨_, _, _, _, broker, turn⟩ := step
  rw [broker, turn, Function.update_of_ne differ, Function.update_of_ne differ]
  exact ⟨rfl, rfl⟩

theorem Follows.still {l : Loop} (before : Follows s self l) (broker : s'.broker = s.broker)
    (turn : s'.turn = s.turn) : Follows s' self l :=
  ⟨broker ▸ before.broker, turn ▸ before.turn⟩

/-- A step of the cluster is a step of the broker's loop or leaves the broker alone. -/
theorem Follows.step {label : Label} {l : Loop} (counted : Counted cluster s)
    (before : Follows s self l) (taken : (prototype build cluster).step s label = some s') :
    Follows s' self l ∨
      ∃ step l', (loop self (cluster.peers self)).step l step = some l' ∧ Follows s' self l' := by
  cases label with
  | broker mover step =>
      simp only [prototype] at taken
      split at taken
      · by_cases here : self = mover
        · subst here
          exact .inr (brokerStep_takesStep counted before taken).follows
        · -- the mover follows its own loop, whatever that has counted
          have follows : Follows s mover ⟨s.broker mover, s.turn mover, [], 0, 0⟩ := ⟨rfl, rfl⟩
          obtain ⟨broker, turn⟩ := (brokerStep_takesStep counted follows taken).others here
          exact .inl ⟨before.broker.trans broker.symm, before.turn.trans turn.symm⟩
      · cases taken
  | client mover identity step =>
      obtain ⟨broker, turn, _⟩ := clientStep_kept taken
      exact .inl (before.still broker turn)
  | worker mover identity step =>
      obtain ⟨broker, turn, _⟩ := workerStep_kept taken
      exact .inl (before.still broker turn)
  | lose packet =>
      obtain rfl := Option.some.inj taken
      exact .inl (before.still rfl rfl)
  | loseStatus packet =>
      obtain rfl := Option.some.inj taken
      exact .inl (before.still rfl rfl)

/-- **Every broker of the cluster runs its loop.** In every reachable state of the cluster
the variables of each broker, and where it stands in its turn, are those of a reachable
state of the loop with its name and its peers. -/
theorem cluster_reachable (reach : Reachable (prototype build cluster) s) (self : Frame) :
    ∃ l, Reachable (loop self (cluster.peers self)) l ∧ Follows s self l := by
  apply reach.simulated (Follows · self ·)
  · exact ⟨rfl, rfl⟩
  · exact fun s label s' l reach before taken =>
      before.step (counted_of_reachable reach) taken

/-! ### The subscribers of `statebe` -/

/-- The set-up of the endpoints in this cluster. -/
def Cluster.setup (cluster : Cluster) : Setup := ⟨cluster.names, cluster.peers⟩

/-- A `statefe` hears a broker over all its connections or over none. -/
theorem heard_endpoints (self publisher : Frame) (peers : List Frame) :
    (statefeEndpoints self peers).filter (· = stateEndpoint publisher) =
      if self = publisher then statefeEndpoints self peers else [] := by
  by_cases same : self = publisher
  · subst same
    simp [statefeEndpoints]
  · have differ : stateEndpoint self ≠ stateEndpoint publisher :=
      fun equal => same (stateEndpoint_injective equal)
    simp [statefeEndpoints, same, differ]

/-- What a broker publishes comes back to it once for each of its peers. -/
theorem deliver_eq {setup : Setup} (distinct : setup.names.Nodup) {publisher : Frame}
    (named : publisher ∈ setup.names) (capacity : Int) :
    setup.deliver publisher capacity =
      (setup.peers publisher).map fun _ => (publisher, publisher, capacity) := by
  obtain ⟨before, after, split⟩ := List.append_of_mem named
  have absent : publisher ∉ before ++ after :=
    (List.nodup_cons.mp (List.nodup_middle.mp (split ▸ distinct))).1
  have others : ∀ names : List Frame, publisher ∉ names →
      (names.flatMap fun self =>
        ((statefeEndpoints self (setup.peers self)).filter (· = stateEndpoint publisher)).map
          fun _ => (self, publisher, capacity)) = [] := by
    intro names absent
    refine List.flatMap_eq_nil_iff.mpr fun self mem => ?_
    have differ : self ≠ publisher := fun same => absent (same ▸ mem)
    rw [heard_endpoints, if_neg differ]
    rfl
  unfold Setup.deliver
  rw [split, List.flatMap_append, List.flatMap_cons, others before, others after, heard_endpoints,
    if_pos rfl, statefeEndpoints, List.map_map]
  · exact List.append_nil _
  · exact fun mem => absent (List.mem_append_right _ mem)
  · exact fun mem => absent (List.mem_append_left _ mem)

/-- **The cluster's state flow is the one the endpoints give.** When no two brokers have one
name, what the cluster puts on its way for a broker that ends its turn is what the
connections of all the brokers make of it. -/
theorem publish_eq (distinct : cluster.names.Nodup) (reach : Reachable (prototype build cluster) s)
    (named : self ∈ cluster.names) (status : Net Frame (Frame × Int)) :
    publish (s.broker self) status =
      status ++ cluster.setup.publish (s.broker self) .publish := by
  have sound := (counted_of_reachable reach).broker self
  show _ = status ++ (broadcast (s.broker self)).toList.flatMap (cluster.setup.deliver _)
  unfold publish broadcast
  by_cases same : (s.broker self).localCapacity = (s.broker self).previousCapacity
  · rw [if_pos same, if_neg (not_not.mpr same)]
    exact (List.append_nil status).symm
  · rw [if_neg same, if_pos same, Option.toList_some, List.flatMap_singleton, sound.named,
      deliver_eq distinct named, sound.peers]
    rfl

end ZmqPractices.Peering
