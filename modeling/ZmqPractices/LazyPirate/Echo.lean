import ZmqPractices.LazyPirate.Service

/-!
What the exchange gives the Lazy Pirate clients.

A socket carries one request at a time, so whatever the exchange holds for the socket of a
client is the request the client waits for (`Echoing.owed`). A new request has a new text
and a new try has a new socket, so no two transmissions are the same, and processing each
at most once bounds how often a text is processed.
-/

namespace ZmqPractices.LazyPirate

open Czmq Lib
open Peering (ZeroLed)

variable {Name : Type} [DecidableEq Name]

/-! ### The clients -/

/-- What a step of a client is: it starts, sends a new request, sends its request again on
a new socket, or does something that sends nothing. -/
inductive Acted (s : Clients Name) (name : Name) : Clients Name → Option Sent → Prop
  | started (socket : Frame) (missing : s.session name = none) (fresh : s.Fresh socket) :
      Acted s name { s.setSession name ⟨.start, socket⟩ with sockets := socket :: s.sockets } none
  | sent (v : Session) (c : Client) (rand : Nat) (found : s.session name = some v)
      (stepped : clientStep v.client (.send rand) = some c) :
      Acted s name (s.transmit name ⟨c, v.socket⟩).1 (some (v.socket, c.request))
  | again (v : Session) (c : Client) (socket : Frame) (found : s.session name = some v)
      (stepped : clientStep v.client .timeout = some c) (inner : c.phase = .inner)
      (fresh : s.Fresh socket) :
      Acted s name ({ s with sockets := socket :: s.sockets }.transmit name ⟨c, socket⟩).1
        (some (socket, c.request))
  | quiet (v : Session) (c : Client) (e : Event) (found : s.session name = some v)
      (stepped : clientStep v.client e = some c)
      (kind : e = .timeout ∧ c.phase ≠ .inner ∨ e = .leave ∨ e = .interrupt) :
      Acted s name (s.setSession name ⟨c, v.socket⟩) none

theorem move_eq_some {s s' : Clients Name} {name : Name} {e : Event}
    (moved : s.move name e = some s') :
    ∃ v c, s.session name = some v ∧ clientStep v.client e = some c ∧
      s' = s.setSession name ⟨c, v.socket⟩ := by
  obtain ⟨v, found, moved⟩ := Option.bind_eq_some_iff.mp moved
  obtain ⟨c, stepped, moved⟩ := Option.bind_eq_some_iff.mp moved
  exact ⟨v, c, found, stepped, (Option.some.inj moved).symm⟩

theorem act_acted {s s' : Clients Name} {name : Name} {act : Act} {sent : Option Sent}
    (taken : s.act name act = some (s', sent)) : Acted s name s' sent := by
  cases act with
  | start socket =>
      obtain ⟨⟨missing, fresh⟩, same⟩ := Option.ite_none_right_eq_some.mp taken
      obtain ⟨rfl, rfl⟩ := Prod.mk.inj (Option.some.inj same)
      exact .started socket missing fresh
  | send rand =>
      obtain ⟨v, found, taken⟩ := Option.bind_eq_some_iff.mp taken
      obtain ⟨c, stepped, taken⟩ := Option.bind_eq_some_iff.mp taken
      obtain ⟨rfl, rfl⟩ := Prod.mk.inj (Option.some.inj taken)
      exact .sent v c rand found stepped
  | timeout socket =>
      obtain ⟨v, found, taken⟩ := Option.bind_eq_some_iff.mp taken
      obtain ⟨c, stepped, taken⟩ := Option.bind_eq_some_iff.mp taken
      split at taken
      · rename_i inner
        obtain ⟨fresh, taken⟩ := Option.ite_none_right_eq_some.mp taken
        obtain ⟨rfl, rfl⟩ := Prod.mk.inj (Option.some.inj taken)
        exact .again v c socket found stepped inner fresh
      · rename_i last
        obtain ⟨rfl, rfl⟩ := Prod.mk.inj (Option.some.inj taken)
        exact .quiet v c .timeout found stepped (.inl ⟨rfl, last⟩)
  | leave =>
      obtain ⟨_, moved, same⟩ := Option.map_eq_some_iff.mp taken
      obtain ⟨rfl, rfl⟩ := Prod.mk.inj same
      obtain ⟨v, c, found, stepped, rfl⟩ := move_eq_some moved
      exact .quiet v c .leave found stepped (.inr (.inl rfl))
  | interrupt =>
      obtain ⟨_, moved, same⟩ := Option.map_eq_some_iff.mp taken
      obtain ⟨rfl, rfl⟩ := Prod.mk.inj same
      obtain ⟨v, c, found, stepped, rfl⟩ := move_eq_some moved
      exact .quiet v c .interrupt found stepped (.inr (.inr rfl))

/-- Every client is in step, sockets belong to one client each, and what was transmitted is
what the clients have sent, no two of them the same. -/
structure Clients.Sound (s : Clients Name) : Prop where
  inStep : ∀ name v, s.session name = some v → InStep v.client
  known : ∀ name v, s.session name = some v → v.socket ∈ s.sockets
  apart : ∀ name name' v v', s.session name = some v → s.session name' = some v' →
    v.socket = v'.socket → name = name'
  zeroLed : ∀ socket ∈ s.sockets, ZeroLed socket
  listed : ∀ t ∈ s.transmitted, t.2.1 ∈ s.sockets
  owner : ∀ t ∈ s.transmitted, ∀ name v, s.session name = some v → v.socket = t.2.1 → t.1 = name
  sent : ∀ name, (Net.on name s.transmitted).map Prod.snd =
    (s.session name).elim [] fun v => v.client.sent
  once : (s.transmitted.map Prod.snd).Nodup

namespace Clients.Sound

variable {s : Clients Name} {name : Name} {v w : Session} {c : Client}

/-- The session that a name has after another was set. -/
theorem session_cases {name' : Name} (found : (s.setSession name w).session name' = some v) :
    name' = name ∧ v = w ∨ name' ≠ name ∧ s.session name' = some v := by
  simp only [setSession] at found
  by_cases here : name' = name
  · subst here
    rw [Function.update_self] at found
    exact .inl ⟨rfl, (Option.some.inj found).symm⟩
  · rw [Function.update_of_ne here] at found
    exact .inr ⟨here, found⟩

/-- A client goes on, on a socket that no other client has, and has sent no more than the
step says. -/
theorem write (sound : s.Sound) (more : List Frame) (sent : Option Sent)
    (inStep : InStep w.client) (own : w.socket ∈ more ++ s.sockets)
    (zeroLed : ∀ socket ∈ more, ZeroLed socket)
    (apart : ∀ name' v, name' ≠ name → s.session name' = some v → v.socket ≠ w.socket)
    (owner : ∀ t ∈ s.transmitted, w.socket = t.2.1 → t.1 = name)
    (socket : ∀ r ∈ sent, r.1 = w.socket) (new : ∀ r ∈ sent, r ∉ s.transmitted.map Prod.snd)
    (texts : w.client.sent = (sent.map Prod.snd).toList ++
      (s.session name).elim [] fun v => v.client.sent) :
    Sound { s.setSession name w with
      sockets := more ++ s.sockets
      transmitted := (sent.map (name, ·)).toList ++ s.transmitted } := by
  constructor
  · intro name' v found
    rcases session_cases found with ⟨rfl, rfl⟩ | ⟨_, found⟩
    · exact inStep
    · exact sound.inStep name' v found
  · intro name' v found
    rcases session_cases found with ⟨rfl, rfl⟩ | ⟨_, found⟩
    · exact own
    · exact List.mem_append_right _ (sound.known name' v found)
  · intro name' name'' v v' found found' same
    rcases session_cases found with ⟨rfl, rfl⟩ | ⟨other, before⟩
    · rcases session_cases found' with ⟨rfl, -⟩ | ⟨other', before'⟩
      · rfl
      · exact absurd same.symm (apart name'' v' other' before')
    · rcases session_cases found' with ⟨rfl, rfl⟩ | ⟨_, before'⟩
      · exact absurd same (apart name' v other before)
      · exact sound.apart name' name'' v v' before before' same
  · intro socket mem
    rcases List.mem_append.mp mem with mem | mem
    · exact zeroLed socket mem
    · exact sound.zeroLed socket mem
  · intro t mem
    rcases List.mem_append.mp mem with mem | mem
    · obtain ⟨r, isSent, rfl⟩ := Option.map_eq_some_iff.mp (Option.mem_toList.mp mem)
      rw [socket r isSent]
      exact own
    · exact List.mem_append_right _ (sound.listed t mem)
  · intro t mem name' v found same
    rcases List.mem_append.mp mem with sent_now | earlier
    · obtain ⟨r, isSent, rfl⟩ := Option.map_eq_some_iff.mp (Option.mem_toList.mp sent_now)
      rcases session_cases found with ⟨rfl, -⟩ | ⟨other, before⟩
      · rfl
      · exact absurd (same.trans (socket r isSent)) (apart name' v other before)
    · rcases session_cases found with ⟨rfl, rfl⟩ | ⟨_, before⟩
      · exact owner t earlier same
      · exact sound.owner t earlier name' v before same
  · intro name'
    rw [Net.on_append, List.map_append, sound.sent name']
    by_cases here : name' = name
    · subst here
      simp only [setSession, Function.update_self, Option.elim_some, texts]
      cases sent <;> simp [Net.on]
    · simp only [setSession, Function.update_of_ne here]
      cases sent <;> simp [Net.on, Ne.symm here]
  · rw [List.map_append]
    cases sent with
    | none => exact sound.once
    | some r => exact List.nodup_cons.mpr ⟨new r rfl, sound.once⟩

/-- A fresh socket is no client's, and nothing was sent on it. -/
theorem fresh_apart (sound : s.Sound) (name : Name) {socket : Frame} (fresh : s.Fresh socket) :
    (∀ name' v, name' ≠ name → s.session name' = some v → v.socket ≠ socket) ∧
      ∀ t ∈ s.transmitted, socket = t.2.1 → t.1 = name := by
  constructor
  · rintro name' v - found rfl
    exact fresh.2 (sound.known name' v found)
  · rintro t mem rfl
    exact absurd (sound.listed t mem) fresh.2

/-- Another client's socket is another one, and what was sent on this one its client sent. -/
theorem own_apart (sound : s.Sound) (found : s.session name = some v) :
    (∀ name' v', name' ≠ name → s.session name' = some v' → v'.socket ≠ v.socket) ∧
      ∀ t ∈ s.transmitted, v.socket = t.2.1 → t.1 = name :=
  ⟨fun name' v' other found' same => other (sound.apart name' name v' v found' found same),
    fun t mem same => sound.owner t mem name v found same⟩

/-- What a client has sent, as one finds it among the transmissions. -/
theorem mem_sent (sound : s.Sound) (found : s.session name = some v) {r : Sent}
    (mem : (name, r) ∈ s.transmitted) : r.2 ∈ v.client.sent := by
  have sent := sound.sent name
  rw [found, Option.elim_some] at sent
  rw [← sent]
  exact List.mem_map.mpr ⟨r, List.mem_filterMap.mpr ⟨(name, r), mem, by simp⟩, rfl⟩

/-- A client that keeps its socket and sends nothing. -/
theorem keep (sound : s.Sound) (found : s.session name = some v) (inStep : InStep c)
    (sent : c.sent = v.client.sent) : (s.setSession name ⟨c, v.socket⟩).Sound := by
  have apart := sound.own_apart found
  exact sound.write [] none inStep (sound.known name v found) (by simp) apart.1 apart.2 (by simp)
    (by simp) (by rw [found]; exact sent)

end Clients.Sound

/-! ### The exchange -/

/-- What the exchange holds for a client's socket is the request the client waits for, and
it holds and has processed no more than was sent. -/
structure Echoing (s : Exchange Name) : Prop where
  sound : s.clients.Sound
  owed : ∀ name v, s.clients.session name = some v →
    (Net.on v.socket (s.pending ++ s.answered)).Subperm v.client.outstanding
  held : (s.pending ++ s.processed).Subperm (s.clients.transmitted.map Prod.snd)
  replies : ∀ r ∈ s.answered, r ∈ s.processed

namespace Echoing

variable {s s' : Exchange Name} {name : Name} {v : Session} {c : Client} {sent : Option Sent}
  {clients : Clients Name}

/-- What is held was sent on a socket of one of the clients. -/
theorem mem_sockets (before : Echoing s) {r : Sent} (mem : r ∈ s.pending ++ s.answered) :
    r.1 ∈ s.clients.sockets := by
  have transmitted : r ∈ s.clients.transmitted.map Prod.snd := by
    apply before.held.subset
    rcases List.mem_append.mp mem with mem | mem
    · exact List.mem_append_left _ mem
    · exact List.mem_append_right _ (before.replies r mem)
  obtain ⟨t, sent, rfl⟩ := List.mem_map.mp transmitted
  exact before.sound.listed t sent

/-- Nothing is held for a fresh socket. -/
theorem on_fresh (before : Echoing s) {socket : Frame} (fresh : s.clients.Fresh socket) :
    Net.on socket (s.pending ++ s.answered) = [] :=
  Net.on_eq_nil fun _ mem same => fresh.2 (same ▸ before.mem_sockets mem)

/-- What is held for a client with nothing outstanding. -/
theorem on_idle (before : Echoing s) (found : s.clients.session name = some v)
    (idle : v.client.outstanding = []) : Net.on v.socket (s.pending ++ s.answered) = [] :=
  List.subperm_nil.mp (idle ▸ before.owed name v found)

/-- A client has gone on, and its request is held if it sent one. The others have what they
had. -/
theorem write (w : Session) (sent : Option Sent) (before : Echoing s) (sound : clients.Sound)
    (session : clients.session = Function.update s.clients.session name (some w))
    (transmitted : clients.transmitted =
      (sent.map (name, ·)).toList ++ s.clients.transmitted)
    (socket : ∀ r ∈ sent, r.1 = w.socket)
    (apart : ∀ name' v, name' ≠ name → s.clients.session name' = some v → v.socket ≠ w.socket)
    (owed : ((sent.map Prod.snd).toList ++ Net.on w.socket (s.pending ++ s.answered)).Subperm
      w.client.outstanding) :
    Echoing { s with clients := clients, pending := sent.toList ++ s.pending } where
  sound := sound
  owed := by
    intro name' v found
    simp only [session] at found
    rw [List.append_assoc, Net.on_append]
    by_cases here : name' = name
    · subst here
      rw [Function.update_self] at found
      obtain rfl := Option.some.inj found
      refine List.Subperm.trans (List.Perm.subperm (List.Perm.append_right _ ?_)) owed
      cases sent with
      | none => exact .refl _
      | some r => simp [Net.on, socket r rfl]
    · rw [Function.update_of_ne here] at found
      have other := apart name' v here found
      have nothing : Net.on v.socket sent.toList = [] :=
        Net.on_eq_nil fun r mem same =>
          other (same.symm.trans (socket r (Option.mem_toList.mp mem)))
      rw [nothing, List.nil_append]
      exact before.owed name' v found
  held := by
    rw [transmitted, List.map_append, List.append_assoc]
    refine List.Subperm.append ?_ before.held
    cases sent <;> exact .refl _
  replies := before.replies

theorem act {act : Act} (before : Echoing s)
    (taken : s.clients.act name act = some (clients, sent)) :
    Echoing { s with clients := clients, pending := sent.toList ++ s.pending } := by
  have sound := before.sound
  cases act_acted taken with
  | started socket missing fresh =>
      have apart := sound.fresh_apart name fresh
      refine before.write ⟨.start, socket⟩ none ?_ rfl rfl (by simp) apart.1 ?_
      · exact sound.write [socket] none .start (by simp) (by simpa using fresh.1) apart.1 apart.2
          (by simp) (by simp) (by rw [missing]; rfl)
      · rw [before.on_fresh fresh]
        exact .refl _
  | sent v c rand found stepped =>
      have apart := sound.own_apart found
      obtain ⟨inStep, idle, out, sentNow, new⟩ := (sound.inStep name v found).send stepped
      refine before.write ⟨c, v.socket⟩ (some (v.socket, c.request)) ?_ rfl rfl
        (by simp) apart.1 ?_
      · refine sound.write [] (some (v.socket, c.request)) inStep (sound.known name v found)
          (by simp) apart.1 apart.2 (by simp) ?_ (by rw [found]; exact sentNow)
        rintro r ⟨⟩ mem
        obtain ⟨t, mem, same⟩ := List.mem_map.mp mem
        obtain ⟨name', r⟩ := t
        obtain rfl : r = (v.socket, c.request) := same
        obtain rfl := apart.2 _ mem rfl
        exact new (sound.mem_sent found mem)
      · rw [before.on_idle found idle, out]
        exact .refl _
  | again v c socket found stepped inner fresh =>
      have apart := sound.fresh_apart name fresh
      obtain ⟨inStep, same, -, out, sentNow⟩ := (sound.inStep name v found).timeout stepped
      rw [if_pos inner] at sentNow
      refine before.write ⟨c, socket⟩ (some (socket, c.request)) ?_ rfl rfl
        (by simp) apart.1 ?_
      · refine sound.write [socket] (some (socket, c.request)) inStep (by simp)
          (by simpa using fresh.1) apart.1 apart.2 (by simp) ?_
          (by rw [found]; exact same ▸ sentNow)
        rintro r ⟨⟩ mem
        obtain ⟨t, mem, same⟩ := List.mem_map.mp mem
        have same : t.2.1 = socket := congrArg Prod.fst same
        exact fresh.2 (same ▸ sound.listed t mem)
      · rw [before.on_fresh fresh, out, same]
        exact .refl _
  | quiet v c e found stepped kind =>
      have apart := sound.own_apart found
      have same : InStep c ∧ c.outstanding = v.client.outstanding ∧ c.sent = v.client.sent := by
        rcases kind with ⟨rfl, last⟩ | kind
        · obtain ⟨inStep, -, out, out', sentNow⟩ := (sound.inStep name v found).timeout stepped
          exact ⟨inStep, out'.trans out.symm, sentNow.trans (if_neg last)⟩
        · exact (sound.inStep name v found).quiet kind stepped
      refine before.write ⟨c, v.socket⟩ none ?_ rfl rfl (by simp) apart.1 ?_
      · exact sound.keep found same.1 same.2.2
      · rw [same.2.1]
        exact before.owed name v found

theorem process {request : Sent} (before : Echoing s) (mem : request ∈ s.pending) :
    Echoing { s with
      pending := s.pending.erase request
      answered := request :: s.answered
      processed := request :: s.processed } := by
  have same := List.perm_cons_erase mem
  refine ⟨before.sound, ?_, ?_, ?_⟩
  · intro name v found
    refine List.Subperm.trans (List.Perm.subperm (Net.Perm.on ?_ v.socket))
      (before.owed name v found)
    exact List.perm_middle.trans (same.symm.append_right s.answered)
  · refine List.Subperm.trans (List.Perm.subperm ?_) before.held
    exact List.perm_middle.trans (same.symm.append_right s.processed)
  · exact fun r mem => (List.mem_cons.mp mem).elim (fun eq => eq ▸ List.mem_cons_self)
      fun mem => List.mem_cons_of_mem _ (before.replies r mem)

/-- A reply that is held for the socket of a client repeats the client's request, and
nothing else is held for the socket. -/
theorem correct (before : Echoing s) (found : s.clients.session name = some v) {reply : Frame}
    (mem : (v.socket, reply) ∈ s.answered) :
    v.client.outstanding = [reply] ∧
      Net.on v.socket (s.pending ++ s.answered.erase (v.socket, reply)) = [] := by
  have same := List.perm_cons_erase mem
  have owed := before.owed name v found
  have split : (Net.on v.socket (s.pending ++ s.answered)).Perm
      (reply :: Net.on v.socket (s.pending ++ s.answered.erase (v.socket, reply))) := by
    refine (Net.Perm.on (same.append_left s.pending) v.socket).trans ?_
    refine (Net.Perm.on List.perm_middle v.socket).trans ?_
    simp [Net.on]
  have owed := split.subperm_right.mp owed
  have outstanding : v.client.outstanding = [reply] := by
    have inside : reply ∈ v.client.outstanding := owed.subset List.mem_cons_self
    unfold Client.outstanding at inside ⊢
    split at inside
    · rename_i awaiting
      rw [if_pos awaiting, List.mem_singleton.mp inside]
    · cases inside
  rw [outstanding] at owed
  exact ⟨outstanding, List.length_eq_zero_iff.mp
    (Nat.le_zero.mp (Nat.le_of_succ_le_succ owed.length_le))⟩

theorem receive {reply : Frame} (before : Echoing s) (found : s.clients.session name = some v)
    (stepped : clientStep v.client (.reply reply) = some c)
    (mem : (v.socket, reply) ∈ s.answered) :
    Echoing { s with
      clients := s.clients.setSession name ⟨c, v.socket⟩
      answered := s.answered.erase (v.socket, reply) } := by
  have sound := before.sound
  have apart := sound.own_apart found
  obtain ⟨outstanding, nothing⟩ := before.correct found mem
  have request : v.client.request = reply := by
    unfold Client.outstanding at outstanding
    split at outstanding
    · exact (List.cons.inj outstanding).1
    · cases outstanding
  obtain ⟨inStep, idle, sent⟩ := (sound.inStep name v found).reply (request ▸ stepped)
  refine ⟨sound.keep found inStep sent, ?_, before.held, ?_⟩
  · intro name' w found'
    rcases Clients.Sound.session_cases found' with ⟨rfl, rfl⟩ | ⟨_, found'⟩
    · rw [nothing]
      exact List.nil_subperm
    · refine List.Subperm.trans (List.Sublist.subperm ?_) (before.owed name' w found')
      exact ((List.erase_sublist).append_left s.pending).filterMap _
  · exact fun r mem => before.replies r (List.mem_of_mem_erase mem)

/-- What a client sends is plain, and goes by a socket whose identity was made for it. -/
theorem plain_sent {act : Act} {r : Sent} (before : Echoing s)
    (taken : s.clients.act name act = some (clients, some r)) : Plain r.2 ∧ ZeroLed r.1 := by
  have sound := before.sound
  cases act_acted taken with
  | sent v c rand found stepped =>
      obtain ⟨-, entered⟩ := Option.ite_none_right_eq_some.mp stepped
      obtain rfl := Option.some.inj entered
      exact ⟨plain_requestText _ _, sound.zeroLed _ (sound.known name v found)⟩
  | again v c socket found stepped inner fresh =>
      have inStep := ((sound.inStep name v found).timeout stepped).1
      exact ⟨inStep.plain_request inner, fresh.1⟩

theorem start : Echoing (exchange Name).start where
  sound := by
    constructor <;> simp [exchange, Clients.start, Net.on]
  owed := by simp [exchange, Clients.start]
  held := List.nil_subperm
  replies := by simp [exchange]

theorem step {l : ExchangeStep Name} (before : Echoing s)
    (taken : (exchange Name).step s l = some s') : Echoing s' := by
  cases l with
  | act name act =>
      obtain ⟨⟨clients, sent⟩, acted, rfl⟩ := Option.map_eq_some_iff.mp taken
      exact before.act acted
  | process request =>
      obtain ⟨mem, same⟩ := Option.ite_none_right_eq_some.mp taken
      exact Option.some.inj same ▸ before.process mem
  | receive name reply =>
      obtain ⟨v, found, taken⟩ := Option.bind_eq_some_iff.mp taken
      obtain ⟨clients, moved, taken⟩ := Option.bind_eq_some_iff.mp taken
      obtain ⟨mem, same⟩ := Option.ite_none_right_eq_some.mp taken
      obtain ⟨v', c, found', stepped, rfl⟩ := move_eq_some moved
      obtain rfl := Option.some.inj (found.symm.trans found')
      exact Option.some.inj same ▸ before.receive found stepped mem

end Echoing

theorem echoing_of_reachable {s : Exchange Name} (reach : Reachable (exchange Name) s) :
    Echoing s :=
  reach.invariant Echoing .start fun _ _ _ before taken => before.step taken

/-! ### What a service within the exchange gives -/

/-- What a client can rely on: it gives up in time, a reply on its way to its socket is the
only one and repeats the request it waits for, and none of its requests was processed more
than `requestRetries` times. -/
structure Served (clients : Clients Name) (answered processed : List Sent) (name : Name)
    (v : Session) : Prop where
  givesUp : GivesUp v.client
  correct : ∀ reply, (v.socket, reply) ∈ answered →
    v.client.awaiting = true ∧ reply = v.client.request ∧ (Net.on v.socket answered).length = 1
  few : ∀ text, (processed.filter fun r => (name, r) ∈ clients.transmitted ∧ r.2 = text).length ≤
    requestRetries

/-- No request was processed twice, and none that was not sent. -/
structure AtMostOnce (clients : Clients Name) (processed : List Sent) : Prop where
  once : processed.Nodup
  sent : ∀ r ∈ processed, ∃ name, (name, r) ∈ clients.transmitted

/-- How often a client has sent a text. -/
theorem count_sent (transmitted : List (Name × Sent)) (name : Name) (text : Frame) :
    transmitted.countP (fun t => t.1 = name ∧ t.2.2 = text) =
      ((Net.on name transmitted).map Prod.snd).count text := by
  induction transmitted with
  | nil => rfl
  | cons t transmitted ih =>
      rw [List.countP_cons, Net.on_cons, ih]
      by_cases own : t.1 = name
      · by_cases same : t.2.2 = text
        · simp [own, same]
        · simp [own, same]
      · simp [own]

section Services

variable {clients : Clients Name} {pending answered processed : List Sent} {t : Exchange Name}

theorem Within.atMostOnce (within : Within clients pending answered processed t)
    (echoing : Echoing t) : AtMostOnce clients processed := by
  have part : processed.Subperm (clients.transmitted.map Prod.snd) := by
    rw [← within.clients, ← within.processed]
    exact (List.sublist_append_right t.pending t.processed).subperm.trans echoing.held
  constructor
  · obtain ⟨mid, same, sub⟩ := part
    exact same.nodup_iff.mp ((within.clients ▸ echoing.sound.once).sublist sub)
  · intro r mem
    obtain ⟨⟨name, _⟩, sent, rfl⟩ := List.mem_map.mp (part.subset mem)
    exact ⟨name, sent⟩

theorem Within.served (within : Within clients pending answered processed t)
    (echoing : Echoing t) {name : Name} {v : Session} (found : clients.session name = some v) :
    Served clients answered processed name v := by
  obtain rfl := within.clients
  obtain rfl := within.processed
  have inStep := echoing.sound.inStep name v found
  refine ⟨inStep.counted.givesUp, ?_, ?_⟩
  · intro reply mem
    obtain ⟨outstanding, nothing⟩ := echoing.correct found (within.answered.subset mem)
    have short : (Net.on v.socket answered).Subperm [reply] := by
      rw [← outstanding]
      refine (Net.Subperm.on within.answered v.socket).trans (List.Subperm.trans ?_
        (echoing.owed name v found))
      rw [Net.on_append]
      exact (List.sublist_append_right _ _).subperm
    have there : reply ∈ Net.on v.socket answered :=
      List.mem_filterMap.mpr ⟨(v.socket, reply), mem, by simp⟩
    have awaited : v.client.awaiting = true ∧ reply = v.client.request := by
      unfold Client.outstanding at outstanding
      split at outstanding
      · rename_i awaiting
        exact ⟨awaiting, (List.cons.inj outstanding).1.symm⟩
      · cases outstanding
    exact ⟨awaited.1, awaited.2, le_antisymm short.length_le (List.length_pos_of_mem there)⟩
  · intro text
    rw [← List.countP_eq_length_filter]
    calc t.processed.countP (fun r => (name, r) ∈ t.clients.transmitted ∧ r.2 = text)
        ≤ (t.clients.transmitted.map Prod.snd).countP
            fun r => (name, r) ∈ t.clients.transmitted ∧ r.2 = text :=
          ((List.sublist_append_right t.pending t.processed).subperm.trans
            echoing.held).countP_le _
      _ = t.clients.transmitted.countP
            ((fun r => (name, r) ∈ t.clients.transmitted ∧ r.2 = text) ∘ Prod.snd) :=
          List.countP_map ..
      _ ≤ t.clients.transmitted.countP fun t => t.1 = name ∧ t.2.2 = text := by
          refine List.countP_mono_left fun u mem is => ?_
          have both : (name, u.2) ∈ t.clients.transmitted ∧ u.2.2 = text := by simpa using is
          -- one transmission is one client's
          have own : u = (name, u.2) := List.inj_on_of_nodup_map echoing.sound.once mem both.1 rfl
          have name_eq : u.1 = name := congrArg Prod.fst own
          simp [name_eq, both.2]
      _ = v.client.sent.count text := by
          rw [count_sent, echoing.sound.sent name, found, Option.elim_some]
      _ ≤ requestRetries := inStep.few text

end Services

end ZmqPractices.LazyPirate
