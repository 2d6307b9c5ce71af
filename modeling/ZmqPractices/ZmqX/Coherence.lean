import ZmqPractices.ZmqX.Resolver
import ZmqPractices.Lib.Transition

/-!
The caches of endpoints in several processes.

The resolver's process binds addresses, any number of client processes look them up, and
a query is on its way to the resolver or back while other processes go on. Tables are
only ever added to at the end, and a process adds only what its own lookup did not find;
so the resolver's answer for an address is final, and a cache holds a part of the
resolver's table (`Coherent`).
-/

namespace ZmqPractices.ZmqX

open Czmq Lib

/-- The client's REQ socket: nothing asked, a query on its way, or a reply to be received. -/
inductive Request where
  | idle
  | sent (addr : CString)
  | replied (addr : CString) (reply : Frame)
deriving DecidableEq

/-- A client process, with the call of `zmq_endpoint_x` that waits in it. -/
structure Client where
  table : Endpoints
  request : Request
  calling : Option CString
deriving DecidableEq

/-- The resolver's table, the client processes, and, for the statements only, what calls
of `zmq_endpoint_x` have returned in them: process, address and endpoint. -/
structure State (Proc : Type) where
  resolver : Endpoints
  client : Proc → Client
  returned : List (Proc × CString × CString)

/-- `zmq_bind_x` in the resolver's process; or in a client, `zmq_endpoint_x` or
`zmq_connect_x` is called, the resolver handles its query, the reply is received, or the
wait for it is interrupted. -/
inductive Step (Proc : Type) where
  | bind (zmq : Zmq) (addr : CString)
  | call (proc : Proc) (addr : CString)
  | resolve (proc : Proc)
  | receive (proc : Proc)
  | interrupt (proc : Proc)

variable {Proc : Type} [DecidableEq Proc]

def State.setClient (s : State Proc) (proc : Proc) (c : Client) : State Proc :=
  { s with client := Function.update s.client proc c }

def State.returns (s : State Proc) (proc : Proc) (addr endpoint : CString) : State Proc :=
  { s with returned := (proc, addr, endpoint) :: s.returned }

/-- The steps. A call is made for an address that is bound, or needs no resolving; on a
socket that is not idle `zmq_send` fails and the call returns NULL. -/
def step (s : State Proc) : Step Proc → Option (State Proc)
  | .bind zmq addr =>
      (zmqBindX zmq .completed none ⟨s.resolver, false⟩ addr).2.map fun (_, p) =>
        { s with resolver := p.table }
  | .call proc addr =>
      let c := s.client proc
      if c.calling = none ∧ (localEndpoint s.resolver addr).isSome then
        match localEndpoint c.table addr with
        | some endpoint => some (s.returns proc addr endpoint)
        | none =>
            if c.request = .idle then
              some (s.setClient proc { c with request := .sent addr, calling := some addr })
            else some s
      else none
  | .resolve proc =>
      match (s.client proc).request with
      | .sent addr =>
          (ipcServerTask s.resolver addr.bytes).map fun reply =>
            s.setClient proc { s.client proc with request := .replied addr reply }
      | _ => none
  | .receive proc =>
      match (s.client proc).calling, (s.client proc).request with
      | some addr, .replied _ reply => do
          let endpoint ← receiveEndpoint reply
          let table ← insertEndpointItem (s.client proc).table addr endpoint
          return (s.setClient proc ⟨table, .idle, none⟩).returns proc addr endpoint
      | _, _ => none
  | .interrupt proc =>
      match (s.client proc).calling with
      | some _ => some (s.setClient proc { s.client proc with calling := none })
      | none => none

/-- The processes, with empty tables at the start. -/
def processes (Proc : Type) [DecidableEq Proc] : System (State Proc) (Step Proc) where
  start := ⟨.empty, fun _ => ⟨.empty, .idle, none⟩, []⟩
  step := step

/-- The three steps of a query that nothing comes between are `zmq_endpoint_x`. -/
theorem exec_zmqEndpointX {s : State Proc} {proc : Proc} {addr endpoint : CString} {p : Process}
    (idle : (s.client proc).request = .idle) (free : (s.client proc).calling = none)
    (bound : s.resolver.find addr = some endpoint)
    (unknown : localEndpoint (s.client proc).table addr = none)
    (done : zmqEndpointX .completed (some s.resolver) ⟨(s.client proc).table, true⟩ addr =
      (some s.resolver, some (some endpoint, p))) :
    ∃ s', (processes Proc).exec s [.call proc addr, .resolve proc, .receive proc] = some s' ∧
      (s'.client proc).table = p.table ∧ s'.returned = (proc, addr, endpoint) :: s.returned := by
  have x : isXAddr addr := (localEndpoint_eq_none.mp unknown).1
  have known : localEndpoint s.resolver addr = some endpoint := by
    rw [localEndpoint, if_pos x, bound]
  have reply := ipcServerTask_found x bound
  have received := receiveEndpoint_found bound
  simp only [zmqEndpointX, unknown, ask_found .completed x bound, if_true, Prod.mk.injEq, true_and,
    Option.map_eq_some_iff] at done
  obtain ⟨table, inserted, rfl⟩ := done
  have called : (processes Proc).step s (.call proc addr) =
      some (s.setClient proc ⟨(s.client proc).table, .sent addr, some addr⟩) := by
    simp [processes, step, free, known, unknown, idle]
  simp only [System.exec, called, Option.bind_some]
  simp [processes, step, State.setClient, reply, received, inserted, State.returns]

/-! ### Growing tables -/

/-- A table that names each address once, and only addresses that need resolving. -/
structure Endpoints.Sound (t : Endpoints) : Prop where
  distinct : (t.items.map AddrEndpoint.addr).Nodup
  named : ∀ item ∈ t.items, isXAddr item.addr

/-- What a table answers, it answers with more items at its end. -/
theorem localEndpoint_of_prefix {t t' : Endpoints} (grown : t.items <+: t'.items)
    {addr endpoint : CString} (known : localEndpoint t addr = some endpoint) :
    localEndpoint t' addr = some endpoint := by
  obtain ⟨more, items⟩ := grown
  unfold localEndpoint at known ⊢
  split
  · rename_i x
    rw [if_pos x] at known
    obtain ⟨item, first, rfl⟩ := Option.map_eq_some_iff.mp known
    rw [Endpoints.find, ← items, Lib.Table.find_append_of_find first]
    rfl
  · rename_i not_x
    rwa [if_neg not_x] at known

/-- A sound table answers for its items. -/
theorem Endpoints.Sound.answers {t : Endpoints} (sound : t.Sound) {item : AddrEndpoint}
    (mem : item ∈ t.items) : localEndpoint t item.addr = some item.endpoint := by
  rw [localEndpoint, if_pos (sound.named item mem), find_of_mem sound.distinct mem]

/-- Inserting an address that a lookup did not find. -/
theorem Endpoints.Sound.insert {t t' : Endpoints} {addr endpoint : CString} (sound : t.Sound)
    (x : isXAddr addr) (absent : t.find addr = none)
    (done : insertEndpointItem t addr endpoint = some t') :
    t.items <+: t'.items ∧ t'.Sound := by
  obtain ⟨item, rfl, -, items⟩ := items_insert done
  refine ⟨⟨[item], items.symm⟩, ?_, ?_⟩
  · rw [items, List.map_append, List.nodup_append']
    refine ⟨sound.distinct, List.nodup_singleton _, ?_⟩
    intro addr mem same
    obtain ⟨other, listed, rfl⟩ := List.mem_map.mp mem
    exact find_eq_none.mp absent other listed (List.mem_singleton.mp same)
  · intro other mem
    rw [items] at mem
    rcases List.mem_append.mp mem with mem | mem
    · exact sound.named other mem
    · exact List.mem_singleton.mp mem ▸ x

/-- Binding in the resolver's process adds at most one item, for a new address. -/
theorem zmqBindX_grows {zmq : Zmq} {t : Endpoints} {addr : CString} {rc : Int} {p : Process}
    (sound : t.Sound) (done : (zmqBindX zmq .completed none ⟨t, false⟩ addr).2 = some (rc, p)) :
    t.items <+: p.table.items ∧ p.table.Sound := by
  have same : t.items <+: t.items ∧ t.Sound := ⟨List.prefix_rfl, sound⟩
  by_cases x : isXAddr addr
  · cases known : t.find addr with
    | some endpoint =>
        simp only [zmqBindX, x, zmqEndpointX, localEndpoint, known, if_true, Option.some.injEq,
          Prod.mk.injEq] at done
        obtain ⟨-, rfl⟩ := done
        exact same
    | none =>
        simp only [zmqBindX, x, zmqEndpointX, localEndpoint, known, if_true, Bool.false_eq_true,
          if_false, bindNewEndpoint] at done
        split at done
        · obtain ⟨-, rfl⟩ := Prod.mk.inj (Option.some.inj done)
          exact same
        · obtain ⟨table, inserted, result⟩ := Option.map_eq_some_iff.mp done
          obtain ⟨-, rfl⟩ := Prod.mk.inj result
          exact sound.insert x known inserted
  · simp only [zmqBindX, x, Bool.false_eq_true, if_false, Option.some.injEq, Prod.mk.injEq] at done
    obtain ⟨-, rfl⟩ := done
    exact same

/-! ### A client beside the resolver -/

/-- The request is for this address. -/
def Request.About (addr : CString) : Request → Prop
  | .idle => False
  | .sent a => a = addr
  | .replied a _ => a = addr

/-- A client caches a part of the resolver's table; it waits only for an address it does
not have; and the reply to it is the resolver's answer. -/
structure Client.Fits (resolver : Endpoints) (c : Client) : Prop where
  cached : ∀ item ∈ c.table.items, item ∈ resolver.items
  sound : c.table.Sound
  asking : ∀ addr, c.calling = some addr →
    isXAddr addr ∧ c.table.find addr = none ∧ c.request.About addr
  replied : ∀ addr reply, c.request = .replied addr reply →
    ∃ endpoint, localEndpoint resolver addr = some endpoint ∧ reply = endpoint.bytes

namespace Client.Fits

variable {resolver : Endpoints} {c : Client} {addr endpoint : CString}

theorem grow {resolver' : Endpoints} (fits : c.Fits resolver)
    (grown : resolver.items <+: resolver'.items) : c.Fits resolver' where
  cached item mem := grown.subset (fits.cached item mem)
  sound := fits.sound
  asking := fits.asking
  replied addr reply is := by
    obtain ⟨endpoint, known, same⟩ := fits.replied addr reply is
    exact ⟨endpoint, localEndpoint_of_prefix grown known, same⟩

/-- What a client finds in its cache is what the resolver answers. -/
theorem known (fits : c.Fits resolver) (sound : resolver.Sound)
    (known : localEndpoint c.table addr = some endpoint) :
    localEndpoint resolver addr = some endpoint := by
  unfold localEndpoint at known
  split at known
  · obtain ⟨item, mem, rfl, rfl⟩ := find_eq_some known
    exact sound.answers (fits.cached item mem)
  · rename_i not_x
    rwa [localEndpoint, if_neg not_x]

theorem send (fits : c.Fits resolver) (unknown : localEndpoint c.table addr = none) :
    Fits resolver { c with request := .sent addr, calling := some addr } := by
  obtain ⟨x, absent⟩ := localEndpoint_eq_none.mp unknown
  refine ⟨fits.cached, fits.sound, ?_, ?_⟩
  · rintro _ ⟨⟩
    exact ⟨x, absent, rfl⟩
  · intro addr reply request
    cases request

theorem answer {reply : Frame} (fits : c.Fits resolver) (sent : c.request = .sent addr)
    (answered : ipcServerTask resolver addr.bytes = some reply) :
    Fits resolver { c with request := .replied addr reply } := by
  refine ⟨fits.cached, fits.sound, ?_, ?_⟩
  · intro addr calling
    obtain ⟨x, absent, about⟩ := fits.asking addr calling
    rw [sent] at about
    exact ⟨x, absent, about⟩
  · rintro _ _ ⟨⟩
    rw [ipcServerTask_bytes] at answered
    split at answered
    · obtain ⟨endpoint, known, rfl⟩ := Option.map_eq_some_iff.mp answered
      exact ⟨endpoint, known, rfl⟩
    · cases answered

theorem interrupt (fits : c.Fits resolver) : Fits resolver { c with calling := none } := by
  refine ⟨fits.cached, fits.sound, ?_, fits.replied⟩
  intro addr calling
  cases calling

/-- The reply to a query is the resolver's item for the address, which is new to the cache. -/
theorem receive {asked : CString} {reply : Frame} {table : Endpoints} (fits : c.Fits resolver)
    (calling : c.calling = some addr) (request : c.request = .replied asked reply)
    (received : receiveEndpoint reply = some endpoint)
    (inserted : insertEndpointItem c.table addr endpoint = some table) :
    Fits resolver ⟨table, .idle, none⟩ ∧ c.table.items <+: table.items ∧
      localEndpoint table addr = some endpoint := by
  obtain ⟨x, absent, about⟩ := fits.asking addr calling
  rw [request] at about
  obtain rfl : asked = addr := about
  obtain ⟨answer, known, rfl⟩ := fits.replied asked reply request
  obtain rfl : answer = endpoint := by
    unfold receiveEndpoint at received
    split at received
    · simpa using received
    · cases received
  obtain ⟨grown, sound⟩ := fits.sound.insert x absent inserted
  obtain ⟨item, address, answered, items⟩ := items_insert inserted
  refine ⟨⟨?_, sound, ?_, ?_⟩, grown, ?_⟩
  · intro other mem
    rw [items] at mem
    rcases List.mem_append.mp mem with mem | mem
    · exact fits.cached other mem
    · obtain rfl := List.mem_singleton.mp mem
      rw [localEndpoint, if_pos x] at known
      obtain ⟨listed, answers, address', answered'⟩ := find_eq_some known
      obtain rfl : listed = other :=
        AddrEndpoint.ext (address'.trans address.symm) (answered'.trans answered.symm)
      exact answers
  · intro addr calling
    cases calling
  · intro addr reply request
    cases request
  · rw [← address, ← answered]
    exact sound.answers (by simp [items])

end Client.Fits

/-! ### Coherence -/

/-- All clients fit the resolver's table, and what was returned in a client is what its
table answers. -/
structure Coherent (s : State Proc) : Prop where
  sound : s.resolver.Sound
  fits : ∀ proc, (s.client proc).Fits s.resolver
  returned : ∀ r ∈ s.returned, localEndpoint (s.client r.1).table r.2.1 = some r.2.2

/-- Every table of the one state is the beginning of that table in the other, and what had
been returned stays returned. -/
structure Extends (s s' : State Proc) : Prop where
  resolver : s.resolver.items <+: s'.resolver.items
  client : ∀ proc, (s.client proc).table.items <+: (s'.client proc).table.items
  returned : s.returned ⊆ s'.returned

section Steps

variable {s s' : State Proc} {proc : Proc}

omit [DecidableEq Proc] in
theorem Extends.refl (s : State Proc) : Extends s s :=
  ⟨List.prefix_rfl, fun _ => List.prefix_rfl, List.Subset.refl _⟩

omit [DecidableEq Proc] in
theorem Extends.trans {s'' : State Proc} (first : Extends s s') (second : Extends s' s'') :
    Extends s s'' where
  resolver := first.resolver.trans second.resolver
  client proc := (first.client proc).trans (second.client proc)
  returned := List.Subset.trans first.returned second.returned

theorem extends_setClient {c : Client} (grown : (s.client proc).table.items <+: c.table.items) :
    Extends s (s.setClient proc c) := by
  refine ⟨List.prefix_rfl, fun other => ?_, List.Subset.refl _⟩
  by_cases here : other = proc
  · subst here
    simpa [State.setClient] using grown
  · simp [State.setClient, here]

theorem Coherent.setClient {c : Client} (before : Coherent s) (fits : c.Fits s.resolver)
    (grown : (s.client proc).table.items <+: c.table.items) : Coherent (s.setClient proc c) := by
  refine ⟨before.sound, fun other => ?_, fun r mem => ?_⟩
  · by_cases here : other = proc
    · subst here
      simpa [State.setClient] using fits
    · simpa [State.setClient, here] using before.fits other
  · exact localEndpoint_of_prefix ((extends_setClient grown).client r.1) (before.returned r mem)

omit [DecidableEq Proc] in
theorem Coherent.returns {addr endpoint : CString} (before : Coherent s)
    (known : localEndpoint (s.client proc).table addr = some endpoint) :
    Coherent (s.returns proc addr endpoint) := by
  refine ⟨before.sound, before.fits, ?_⟩
  intro r mem
  rcases List.mem_cons.mp mem with rfl | mem
  · exact known
  · exact before.returned r mem

omit [DecidableEq Proc] in
theorem extends_returns (s : State Proc) (proc : Proc) (addr endpoint : CString) :
    Extends s (s.returns proc addr endpoint) :=
  ⟨List.prefix_rfl, fun _ => List.prefix_rfl, List.subset_cons_self _ _⟩

omit [DecidableEq Proc] in
theorem Coherent.bind {resolver : Endpoints} (before : Coherent s)
    (grown : s.resolver.items <+: resolver.items) (sound : resolver.Sound) :
    Coherent { s with resolver := resolver } where
  sound := sound
  fits proc := (before.fits proc).grow grown
  returned := before.returned

/-- What one step keeps: coherence, and every table as the beginning of the next. -/
theorem Coherent.step {l : Step Proc} (before : Coherent s) (taken : ZmqX.step s l = some s') :
    Coherent s' ∧ Extends s s' := by
  have same : ∀ {proc : Proc}, (s.client proc).table.items <+: (s.client proc).table.items :=
    List.prefix_rfl
  cases l with
  | bind zmq addr =>
      obtain ⟨⟨rc, p⟩, done, rfl⟩ := Option.map_eq_some_iff.mp taken
      obtain ⟨grown, sound⟩ := zmqBindX_grows before.sound done
      exact ⟨before.bind grown sound, grown, fun _ => List.prefix_rfl, List.Subset.refl _⟩
  | call proc addr =>
      simp only [ZmqX.step] at taken
      split at taken
      · split at taken
        · rename_i known
          obtain rfl := Option.some.inj taken
          exact ⟨before.returns known, extends_returns ..⟩
        · rename_i unknown
          split at taken
          · obtain rfl := Option.some.inj taken
            exact ⟨before.setClient ((before.fits proc).send unknown) same, extends_setClient same⟩
          · obtain rfl := Option.some.inj taken
            exact ⟨before, .refl s⟩
      · cases taken
  | resolve proc =>
      simp only [ZmqX.step] at taken
      split at taken
      · rename_i sent
        obtain ⟨reply, answered, rfl⟩ := Option.map_eq_some_iff.mp taken
        have fits := (before.fits proc).answer sent answered
        exact ⟨before.setClient fits same, extends_setClient same⟩
      · cases taken
  | receive proc =>
      simp only [ZmqX.step] at taken
      split at taken
      · rename_i calling request
        obtain ⟨endpoint, received, taken⟩ := Option.bind_eq_some_iff.mp taken
        obtain ⟨table, inserted, taken⟩ := Option.bind_eq_some_iff.mp taken
        obtain rfl := Option.some.inj taken
        obtain ⟨fits, grown, known⟩ := (before.fits proc).receive calling request received inserted
        have after := before.setClient fits grown
        refine ⟨after.returns ?_, (extends_setClient grown).trans (extends_returns ..)⟩
        simpa [State.setClient] using known
      · cases taken
  | interrupt proc =>
      simp only [ZmqX.step] at taken
      split at taken
      · obtain rfl := Option.some.inj taken
        exact ⟨before.setClient (before.fits proc).interrupt same, extends_setClient same⟩
      · cases taken

theorem coherent_of_reachable (reach : Reachable (processes Proc) s) : Coherent s := by
  apply reach.invariant Coherent
  · have empty : Endpoints.empty.Sound := ⟨List.nodup_nil, fun _ => (absurd · List.not_mem_nil)⟩
    refine ⟨empty, fun _ => ⟨fun _ => id, empty, ?_, ?_⟩, fun _ => (absurd · List.not_mem_nil)⟩
    · intro addr calling
      cases calling
    · intro addr reply request
      cases request
  · exact fun s l s' before taken => (before.step taken).1

/-- Every later state extends a reachable one. -/
theorem extends_of_exec {labels : List (Step Proc)} (reach : Reachable (processes Proc) s)
    (later : (processes Proc).exec s labels = some s') : Extends s s' := by
  induction labels generalizing s with
  | nil => exact Option.some.inj later ▸ .refl s
  | cons l labels ih =>
      obtain ⟨mid, taken, rest⟩ := Option.bind_eq_some_iff.mp later
      have step := ((coherent_of_reachable reach).step taken).2
      exact step.trans (ih (reach.next taken) rest)

end Steps

/-- **The caches are coherent.** For any number of client processes and any interleaving,
from a state `s` that is reached to any later one `s'`:

* the addresses in each table are pairwise distinct;
* what `zmq_endpoint_x` has returned for an address in a process it returns there again,
  and never anything else in any process; what the resolver answers, it goes on
  answering;
* an endpoint that a process has cached is the resolver's for that address, at `s` and at
  `s'`. -/
theorem cache_coherent {s s' : State Proc} {labels : List (Step Proc)}
    (reach : Reachable (processes Proc) s)
    (later : (processes Proc).exec s labels = some s') :
    ((s.resolver.items.map AddrEndpoint.addr).Nodup ∧
      ∀ proc, ((s.client proc).table.items.map AddrEndpoint.addr).Nodup) ∧
    (∀ proc addr endpoint, (proc, addr, endpoint) ∈ s.returned →
      localEndpoint (s'.client proc).table addr = some endpoint ∧
        ∀ other endpoint', (other, addr, endpoint') ∈ s'.returned → endpoint' = endpoint) ∧
    (∀ addr endpoint, localEndpoint s.resolver addr = some endpoint →
      localEndpoint s'.resolver addr = some endpoint) ∧
    ∀ proc, ∀ item ∈ (s.client proc).table.items,
      localEndpoint s.resolver item.addr = some item.endpoint ∧
        localEndpoint s'.resolver item.addr = some item.endpoint := by
  have coherent := coherent_of_reachable reach
  have coherent' := coherent_of_reachable (reach.exec later)
  have ext := extends_of_exec reach later
  refine ⟨⟨coherent.sound.distinct, fun proc => (coherent.fits proc).sound.distinct⟩, ?_, ?_, ?_⟩
  · intro proc addr endpoint mem
    have known := coherent'.returned _ (ext.returned mem)
    refine ⟨known, ?_⟩
    intro other endpoint' mem'
    have first := (coherent'.fits proc).known coherent'.sound known
    have second := (coherent'.fits other).known coherent'.sound (coherent'.returned _ mem')
    exact Option.some.inj (second.symm.trans first)
  · exact fun addr endpoint => localEndpoint_of_prefix ext.resolver
  · intro proc item mem
    have here := coherent.sound.answers ((coherent.fits proc).cached item mem)
    exact ⟨here, localEndpoint_of_prefix ext.resolver here⟩

/-- What ZeroMQ answers where it chooses `tcp://127.0.0.1:1` for a new endpoint. -/
def firstPort : Zmq where
  bind _ := 0
  connect _ := 0
  bindAny := .ok (.ofBytes [0x74, 0x63, 0x70, 0x3a, 0x2f, 0x2f, 0x31, 0x32, 0x37, 0x2e, 0x30, 0x2e,
    0x30, 0x2e, 0x31, 0x3a, 0x31])

/-- One client caches the endpoint of an address while another asks for it. -/
theorem cache_coherent_two : ∃ s s' : State Bool, Reachable (processes Bool) s ∧
    (s.client true).table.items.length = 1 ∧
      (processes Bool).exec s [.resolve false, .receive false] = some s' ∧
      ∀ proc, ∀ item ∈ (s.client proc).table.items,
        localEndpoint s.resolver item.addr = some item.endpoint ∧
          localEndpoint s'.resolver item.addr = some item.endpoint := by
  have ran : ((processes Bool).exec (processes Bool).start
      [.bind firstPort ipcA, .call true ipcA, .call false ipcA, .resolve true, .receive true]).map
        (fun s => ((s.client true).table.items.length,
          ((processes Bool).exec s [.resolve false, .receive false]).isSome)) =
      some (1, true) := by decide
  obtain ⟨s, done, seen⟩ := Option.map_eq_some_iff.mp ran
  obtain ⟨cached, more⟩ := Prod.mk.inj seen
  obtain ⟨s', later⟩ := Option.isSome_iff_exists.mp more
  have reach := Reachable.start.exec done
  exact ⟨s, s', reach, cached, later, (cache_coherent reach later).2.2.2⟩

end ZmqPractices.ZmqX
