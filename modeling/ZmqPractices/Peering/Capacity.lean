import ZmqPractices.Peering.Custody

/-!
The counters of a broker.

`local_capacity` counts the available workers, and a broker without peers never learns
of cloud capacity, since it has no connection to receive it on. Together with the
envelopes this says that the broker never reads where there is nothing to read: every
message it finds on a socket is routed (`broker_defined`).
-/

namespace ZmqPractices.Peering

open Czmq Lib

variable {build : Build} {cluster : Cluster} {s s' : State} {self : Frame}

/-- The variables of the broker with this name. -/
structure Sound (cluster : Cluster) (name : Frame) (b : Broker) : Prop where
  named : b.self = name
  peers : b.peers = cluster.peers name
  available : b.localCapacity = b.availableWorkers.size
  alone : cluster.peers name = [] → b.cloudCapacity = 0

/-- All brokers are sound, and nothing is on its way to the `statefe` of one without
peers. -/
structure Counted (cluster : Cluster) (s : State) : Prop where
  broker : ∀ self, Sound cluster self (s.broker self)
  status : ∀ self, cluster.peers self = [] → Net.on self s.status = []

theorem Sound.routed {b b' : Broker} (before : Sound cluster self b) (routed : Routed b b') :
    Sound cluster self b' where
  named := routed.self.trans before.named
  peers := routed.peers.trans before.peers
  available := routed.counted before.available
  alone none := routed.cloudCapacity.trans (before.alone none)

/-- A step that writes to one broker. -/
theorem Counted.setBroker {b : Broker} (before : Counted cluster s)
    (brokers : s'.broker = Function.update s.broker self b) (sound : Sound cluster self b)
    (status : ∀ other, cluster.peers other = [] → Net.on other s'.status = []) :
    Counted cluster s' := by
  refine ⟨fun other => ?_, status⟩
  rw [brokers]
  by_cases here : other = self
  · rw [here, Function.update_self]
    exact sound
  · rw [Function.update_of_ne here]
    exact before.broker other

theorem Counted.quiet (before : Counted cluster s) (broker : s'.broker = s.broker)
    (status : ∀ other, cluster.peers other = [] → Net.on other s'.status = []) :
    Counted cluster s' :=
  ⟨broker ▸ before.broker, status⟩

theorem Counted.route {sender : Frame} {chan : Chan} {turn : Turn}
    {f : Broker → Msg → Option (Broker × Option Output)} (before : Counted cluster s)
    (routed : ∀ b msg b' out, f b msg = some (b', out) → Routed b b')
    (taken : s.route self sender chan turn f = some s') : Counted cluster s' := by
  obtain ⟨msg, net, b, out, _, done, rfl⟩ := route_cases taken
  have sound := (before.broker self).routed (routed _ _ _ _ done)
  exact before.setBroker rfl sound before.status

/-- A part of the status messages brings nothing to a broker without peers. -/
theorem Counted.part {status : Net Frame (Frame × Int)} (before : Counted cluster s)
    (part : status.Sublist s.status) (other : Frame) (none : cluster.peers other = []) :
    Net.on other status = [] := by
  have part := Net.Subperm.on part.subperm other
  rw [before.status other none] at part
  exact List.subperm_nil.mp part

/-- What a broker publishes goes to nobody when it has no peers. -/
theorem Counted.publish (before : Counted cluster s) (self other : Frame)
    (none : cluster.peers other = []) :
    Net.on other (publish (s.broker self) s.status) = [] := by
  unfold Peering.publish
  split
  · exact before.status other none
  · rw [Net.on_append, before.status other none, List.nil_append, (before.broker self).named,
      (before.broker self).peers]
    by_cases here : self = other
    · subst here
      rw [none]
      rfl
    · simp [Net.on, here]

theorem Counted.move (before : Counted cluster s) (move : BrokerMove s self s') :
    Counted cluster s' := by
  have sound := before.broker self
  cases move with
  | polled turn =>
      exact before.setBroker rfl ⟨sound.named, sound.peers, sound.available, sound.alone⟩
        before.status
  | localbe worker turn taken => exact before.route (fun _ _ _ _ => localbeReply_routed) taken
  | cloudbe peer turn taken => exact before.route (fun _ _ _ _ => cloudbeReply_routed) taken
  | learnt name capacity status turn received =>
      -- a broker without peers has no status message to read
      have alone : cluster.peers self = [] → capacity = 0 := fun none => by
        have first := Net.on_recv_self received
        rw [before.status self none] at first
        cases first
      exact before.setBroker rfl ⟨sound.named, sound.peers, sound.available, alone⟩
        (before.part (Net.recv_sublist received))
  | localfe client rand turn taken => exact before.route (fun _ _ _ _ => routeRequest_routed) taken
  | cloudfe peer rand turn capacity taken =>
      exact before.route (fun _ _ _ _ => routeRequest_routed) taken
  | turned turn => exact before.quiet rfl before.status
  | published turn => exact before.quiet rfl (before.publish self)

theorem counted_of_reachable (reach : Reachable (prototype build cluster) s) :
    Counted cluster s := by
  apply reach.invariant (Counted cluster)
  · exact ⟨fun _ => ⟨rfl, rfl, rfl, fun _ => rfl⟩, fun _ _ => rfl⟩
  · intro s l s' before taken
    cases l with
    | broker self step =>
        simp only [prototype] at taken
        split at taken
        · exact before.move (brokerStep_move taken)
        · cases taken
    | client self identity step =>
        obtain ⟨broker, _, status⟩ := clientStep_kept taken
        exact before.quiet broker (status ▸ before.status)
    | worker self identity step =>
        obtain ⟨broker, _, status⟩ := workerStep_kept taken
        exact before.quiet broker (status ▸ before.status)
    | lose packet =>
        obtain rfl := Option.some.inj taken
        exact before.quiet rfl before.status
    | loseStatus packet =>
        obtain rfl := Option.some.inj taken
        exact before.quiet rfl (before.part (List.eraseIdx_sublist s.status packet))

/-- **A broker routes whatever it finds.** In every reachable state, every reply on its
way to a broker is routed when it is read; the loop over the requests is entered only
with an available worker or a peer to choose, and then every request is routed. -/
theorem broker_defined (build : Build) (cluster : Cluster) {s : State}
    (reach : Reachable (prototype build cluster) s) {self : Frame} (named : self ∈ cluster.names) :
    (∀ worker msg net, Net.recv (.toLocalbe self worker) s.net = some (msg, net) →
      ∃ b out, localbeReply (s.broker self) (worker :: msg) = some (b, out)) ∧
    (∀ peer msg net, Net.recv (.toCloudbe self peer) s.net = some (msg, net) →
      ∃ b out, cloudbeReply (s.broker self) (peer :: msg) = some (b, out)) ∧
    ((s.broker self).localCapacity + (s.broker self).cloudCapacity ≠ 0 →
      (s.broker self).localCapacity ≠ 0 ∨ (s.broker self).peers ≠ []) ∧
    (∀ rand msg, (s.broker self).localCapacity ≠ 0 ∨ rand < (s.broker self).peers.length →
      ∃ b out, routeRequest (s.broker self) rand msg = some (b, out)) := by
  have shaped := wellShaped_of_reachable reach
  have counted := counted_of_reachable reach
  refine ⟨?_, ?_, ?_, fun rand msg => routeRequest_defined rand msg (counted.broker self).available⟩
  · intro worker msg net received
    have shape := shaped.net _ (Net.mem_of_recv received)
    cases shape with
    | ready => exact ⟨_, _, rfl⟩
    | ownAnswer zeroLed =>
        obtain ⟨bytes, rfl⟩ := zeroLed.eq_cons
        exact ⟨_, _, localbeReply_answer _ worker bytes _ (by decide)⟩
    | peerAnswer known zeroLed =>
        obtain ⟨byte, bytes, rfl, not_ready⟩ :=
          eq_cons_of_mem_names (cluster.peers_named self named _ known)
        exact ⟨_, _, localbeReply_answer _ worker bytes _ not_ready⟩
  · intro peer msg net received
    have shape := shaped.net _ (Net.mem_of_recv received)
    cases shape with
    | returned zeroLed =>
        obtain ⟨bytes, rfl⟩ := zeroLed.eq_cons
        exact ⟨_, _, cloudbeReply_answer _ peer 0 bytes _⟩
  · intro room
    by_cases alone : (s.broker self).peers = []
    · have cloud := (counted.broker self).alone ((counted.broker self).peers ▸ alone)
      rw [cloud, Int.add_zero] at room
      exact .inl room
    · exact .inr alone

end ZmqPractices.Peering
