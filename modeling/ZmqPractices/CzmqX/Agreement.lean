import ZmqPractices.CzmqX.Hosts

/-!
What processes know of a named endpoint.

A call of either library leaves a table as it was, or adds to it what the resolver has
answered, or an endpoint that ZeroMQ has chosen (`Learns`). So whatever processes start and
stop, what one of them has for an address was chosen by one of them, and it keeps it. Two
disagree only if two have chosen, which takes a resolver that has ended, a process that was
never initialised, or a client that was interrupted when it asked (`endpoints_agree`).
-/

namespace ZmqPractices.CzmqX

open Czmq ZmqX Lib

/-! ### What a call does to a table -/

/-- What a process has learnt from a call that returned. -/
inductive Learns (resolver : Option Endpoints) (p p' : Process) : Prop where
  | same (is : p' = p)
  | asked {t : Endpoints} {addr endpoint : CString} (client : p.client = true)
      (there : resolver = some t) (x : isXAddr addr) (absent : p.table.find addr = none)
      (found : t.find addr = some endpoint)
      (inserted : insertEndpointItem p.table addr endpoint = some p'.table)
      (still : p'.client = p.client)
  | chose {addr endpoint : CString} (x : isXAddr addr) (absent : p.table.find addr = none)
      (inserted : insertEndpointItem p.table addr endpoint = some p'.table)
      (still : p'.client = p.client)

variable {query : Query} {resolver resolver' : Option Endpoints} {p p' : Process}
  {addr : CString}

/-- NULL is for an address that the process does not have. -/
theorem zmqEndpointX_null
    (returned : zmqEndpointX query resolver p addr = (resolver', some (none, p'))) :
    isXAddr addr ∧ p.table.find addr = none ∧ p' = p := by
  have unknown : localEndpoint p.table addr = none := by
    unfold zmqEndpointX at returned
    cases known : localEndpoint p.table addr with
    | some here => simp [known] at returned
    | none => rfl
  obtain ⟨x, absent⟩ := localEndpoint_eq_none.mp unknown
  obtain ⟨-, -, same, -⟩ := zmqEndpointX_mapped x returned
  exact ⟨x, absent, same rfl⟩

theorem zmqEndpointX_learns {endpoint : Option CString}
    (returned : zmqEndpointX query resolver p addr = (resolver', some (endpoint, p'))) :
    Learns resolver p p' := by
  cases endpoint with
  | none => exact .same (zmqEndpointX_null returned).2.2
  | some endpoint =>
      unfold zmqEndpointX at returned
      split at returned
      · cases returned
        exact .same rfl
      · rename_i unknown
        obtain ⟨x, absent⟩ := localEndpoint_eq_none.mp unknown
        split at returned
        · rename_i client
          split at returned
          · cases returned
          · cases returned
          · rename_i asked
            rcases ask_cases x asked with ⟨-, rfl, -, answered⟩ | ⟨-, none, -⟩
            · obtain ⟨rfl, inserts⟩ := Prod.mk.inj returned
              obtain ⟨table, inserted, made⟩ := Option.map_eq_some_iff.mp inserts
              cases made
              obtain ⟨t, rfl, found⟩ := Option.bind_eq_some_iff.mp answered.symm
              exact .asked client rfl x absent found inserted rfl
            · cases none
        · cases returned

/-- The calls that only look their address up. -/
theorem zmqUnbindX_learns {unbind : CString → Int} {rc : Int}
    (returned : zmqUnbindX unbind query resolver p addr = (resolver', some (rc, p'))) :
    Learns resolver p p' := by
  unfold zmqUnbindX at returned
  split at returned
  · split at returned
    · cases returned
    · rename_i looked
      cases returned
      exact zmqEndpointX_learns looked
    · rename_i looked
      cases returned
      exact zmqEndpointX_learns looked
  · cases returned
    exact .same rfl

theorem zmqConnectX_learns {zmq : Zmq} {rc : Int}
    (returned : zmqConnectX zmq query resolver p addr = (resolver', some (rc, p'))) :
    Learns resolver p p' := by
  unfold zmqConnectX at returned
  split at returned
  · split at returned
    · cases returned
    · rename_i looked
      cases returned
      exact zmqEndpointX_learns looked
    · rename_i looked
      cases returned
      exact zmqEndpointX_learns looked
  · cases returned
    exact .same rfl

theorem zmqBindX_learns {zmq : Zmq} {rc : Int}
    (returned : zmqBindX zmq query resolver p addr = (resolver', some (rc, p'))) :
    Learns resolver p p' := by
  unfold zmqBindX at returned
  split at returned
  · split at returned
    · cases returned
    · rename_i looked
      obtain ⟨x, absent, rfl⟩ := zmqEndpointX_null looked
      obtain ⟨rfl, bound⟩ := Prod.mk.inj returned
      unfold bindNewEndpoint at bound
      split at bound
      · cases bound
        exact .same rfl
      · obtain ⟨table, inserted, made⟩ := Option.map_eq_some_iff.mp bound
        cases made
        exact .chose x absent inserted rfl
    · rename_i looked
      cases returned
      exact zmqEndpointX_learns looked
  · cases returned
    exact .same rfl

/-- A call that asks for nothing the table has. -/
def Quiet (mapped : Option Endpoints → Process → CString →
    Option Endpoints × Option (Int × Process)) : Prop :=
  ∀ resolver p addr endpoint, isXAddr addr → p.table.find addr = some endpoint →
    ∃ rc, mapped resolver p addr = (resolver, some (rc, p))

theorem quiet_zmqUnbindX (unbind : CString → Int) (query : Query) :
    Quiet (zmqUnbindX unbind query) := by
  intro resolver p addr endpoint x found
  exact ⟨unbind endpoint, by simp only [zmqUnbindX, x, if_true, zmqEndpointX_local x found]⟩

theorem quiet_zmqConnectX (zmq : Zmq) (query : Query) : Quiet (zmqConnectX zmq query) := by
  intro resolver p addr endpoint x found
  exact ⟨zmq.connect endpoint, by simp only [zmqConnectX, x, if_true, zmqEndpointX_local x found]⟩

variable {text : CString}

theorem zsocketX_learns {plain : CString → Int}
    {mapped : Option Endpoints → Process → CString → Option Endpoints × Option (Int × Process)}
    (quiet : Quiet mapped) {rc : Int}
    (returned : zsocketX plain query mapped resolver p text = (resolver', some (rc, p'))) :
    Learns resolver p p' := by
  simp only [zsocketX] at returned
  split at returned
  · rename_i x
    split at returned
    · cases returned
    · rename_i looked
      cases returned
      exact zmqEndpointX_learns looked
    · rename_i looked
      have learns := zmqEndpointX_learns looked
      -- the address is in the table by now
      obtain ⟨-, -, -, keeps⟩ := zmqEndpointX_mapped x looked
      obtain ⟨endpoint, found⟩ := Option.isSome_iff_exists.mp
        ((keeps.find (format text)).mpr (.inr ⟨rfl, rfl⟩))
      obtain ⟨rc', same⟩ := quiet _ _ _ _ x found
      rw [same] at returned
      cases returned
      exact learns
  · cases returned
    exact .same rfl

/-- No call makes a process a client. -/
theorem Learns.client (learns : Learns resolver p p') : p'.client = p.client := by
  cases learns with
  | same is => rw [is]
  | asked _ _ _ _ _ _ still => exact still
  | chose _ _ _ still => exact still

theorem zsocketBindX_learns {below : Below} {result : Bind}
    (returned : zsocketBindX below resolver p text = (resolver', some (result, p'))) :
    Learns resolver p p' := by
  by_cases x : isXAddr (format text)
  · rcases zsocketBindX_cases x returned with ⟨-, -, endpoint, looked⟩ | ⟨rc, bound, -⟩
    · exact zmqEndpointX_learns (Prod.ext rfl looked)
    · exact zmqBindX_learns (Prod.ext rfl bound)
  · simp only [zsocketBindX, if_neg x] at returned
    cases returned
    exact .same rfl

/-- What a call does if it returns. -/
theorem HostCall.run_learns {call : HostCall}
    (returned : call.run resolver p = (resolver', some p')) : Learns resolver p p' := by
  have unpack {α : Type} {outcome : Option Endpoints × Option (α × Process)}
      (here : processOf outcome = (resolver', some p')) :
      ∃ result, outcome = (resolver', some (result, p')) := by
    obtain ⟨rfl, some⟩ := Prod.mk.inj here
    obtain ⟨⟨result, p'⟩, is, rfl⟩ := Option.map_eq_some_iff.mp some
    exact ⟨result, Prod.ext rfl is⟩
  cases call with
  | zmqEndpoint addr query =>
      obtain ⟨_, is⟩ := unpack returned
      exact zmqEndpointX_learns is
  | zmqBind addr answers =>
      obtain ⟨_, is⟩ := unpack returned
      exact zmqBindX_learns is
  | zmqUnbind addr answers =>
      obtain ⟨_, is⟩ := unpack returned
      exact zmqUnbindX_learns is
  | zmqConnect addr answers =>
      obtain ⟨_, is⟩ := unpack returned
      exact zmqConnectX_learns is
  | zmqDisconnect addr answers =>
      obtain ⟨_, is⟩ := unpack returned
      exact zmqUnbindX_learns is
  | zsocketBind text answers =>
      obtain ⟨_, is⟩ := unpack returned
      exact zsocketBindX_learns is
  | zsocketUnbind text answers =>
      obtain ⟨_, is⟩ := unpack returned
      rw [zsocketUnbindX_eq] at is
      exact zsocketX_learns (quiet_zmqUnbindX _ _) is
  | zsocketConnect text answers =>
      obtain ⟨_, is⟩ := unpack returned
      exact zsocketX_learns (quiet_zmqConnectX _ _) is
  | zsocketDisconnect text answers =>
      obtain ⟨_, is⟩ := unpack returned
      exact zsocketX_learns (quiet_zmqUnbindX _ _) is

/-! ### Tables and choices -/

/-- Each table is sound; what is in one was chosen, and what a process has chosen is in its
table. -/
structure Tabled {Proc : Type} (s : Hosts Proc) : Prop where
  sound : ∀ proc, (s.host proc).process.table.Sound
  origin : ∀ proc, ∀ item ∈ (s.host proc).process.table.items,
    ∃ c ∈ s.chosen, c.addr = item.addr ∧ c.endpoint = item.endpoint
  kept : ∀ c ∈ s.chosen, ∃ item ∈ (s.host c.proc).process.table.items,
    item.addr = c.addr ∧ item.endpoint = c.endpoint

/-- Clients are those that are asking, a resolver that runs has the port, and who chose as the
resolver has, or had, the port. -/
structure Ported {Proc : Type} (s : Hosts Proc) : Prop where
  client : ∀ proc, (s.host proc).process.client = true ↔ (s.host proc).role = .asking
  serving : ∀ proc, (s.host proc).running = true → (s.host proc).role = .serving →
    s.port = some proc
  choosers : ∀ c ∈ s.chosen, c.role = .serving → s.port = some c.proc ∨ c.proc ∈ s.ended

/-- The tables of one state are the beginnings of those of the other. -/
def Grows {Proc : Type} (s s' : Hosts Proc) : Prop :=
  ∀ proc, (s.host proc).process.table.items <+: (s'.host proc).process.table.items

variable {Proc : Type} [DecidableEq Proc] {s s' : Hosts Proc}

omit [DecidableEq Proc] in
/-- Steps that write to no table and choose nothing. -/
theorem Tabled.frame (tabled : Tabled s)
    (tables : ∀ proc, (s'.host proc).process.table = (s.host proc).process.table)
    (chosen : s'.chosen = s.chosen) : Tabled s' where
  sound proc := tables proc ▸ tabled.sound proc
  origin proc item mem := by
    rw [tables] at mem
    rw [chosen]
    exact tabled.origin proc item mem
  kept c mem := by
    rw [tables]
    exact tabled.kept c (chosen ▸ mem)

theorem setHost_table (proc : Proc) {host : Host}
    (table : host.process.table = (s.host proc).process.table) (other : Proc) :
    ((s.setHost proc host).host other).process.table = (s.host other).process.table := by
  by_cases here : other = proc
  · subst here
    simpa only [Hosts.setHost, Function.update_self] using table
  · simp only [Hosts.setHost, Function.update_of_ne here]

theorem leave_table (proc : Proc) {host : Host}
    (table : host.process.table = (s.host proc).process.table) (other : Proc) :
    ((s.leave proc host).host other).process.table = (s.host other).process.table :=
  setHost_table proc table other

theorem stop_table (s : Hosts Proc) (proc other : Proc) :
    ((s.stop proc).host other).process.table = (s.host other).process.table :=
  leave_table proc (by rfl) other

/-- A step of one process that leaves the port alone. -/
theorem Ported.setHost (ported : Ported s) {proc : Proc} {host : Host}
    (client : host.process.client = true ↔ host.role = .asking)
    (serving : host.running = true → host.role = .serving → s.port = some proc) :
    Ported (s.setHost proc host) where
  client other := by
    by_cases here : other = proc
    · subst here
      simpa only [Hosts.setHost, Function.update_self] using client
    · simpa only [Hosts.setHost, Function.update_of_ne here] using ported.client other
  serving other runs serves := by
    by_cases here : other = proc
    · subst here
      simp only [Hosts.setHost, Function.update_self] at runs serves
      exact serving runs serves
    · simp only [Hosts.setHost, Function.update_of_ne here] at runs serves
      exact ported.serving other runs serves
  choosers := ported.choosers

/-- A process that gives up the port is the resolver no more. -/
theorem Ported.leave (ported : Ported s) {proc : Proc} {host : Host}
    (client : host.process.client = true ↔ host.role = .asking)
    (left : host.running = true → host.role ≠ .serving) : Ported (s.leave proc host) := by
  have still : Ported (s.setHost proc host) :=
    ported.setHost client fun running serves => absurd serves (left running)
  refine ⟨still.client, fun other running serves => ?_, fun c mem served => ?_⟩
  · have port : s.port = some other := still.serving other running serves
    have elsewhere : ¬ s.port = some proc := by
      intro same
      obtain rfl := Option.some.inj (port.symm.trans same)
      simp only [Hosts.leave, Hosts.setHost, Function.update_self] at running serves
      exact left running serves
    exact (if_neg elsewhere).trans port
  · rcases ported.choosers c mem served with port | ended
    · by_cases here : s.port = some proc
      · obtain rfl := Option.some.inj (port.symm.trans here)
        exact .inr (by simp [Hosts.leave, here])
      · exact .inl ((if_neg here).trans port)
    · refine .inr ?_
      simp only [Hosts.leave]
      split
      · exact List.mem_append_left _ ended
      · exact ended

theorem Ported.stop (ported : Ported s) (proc : Proc) : Ported (s.stop proc) :=
  ported.leave (ported.client proc) fun running => by cases running

/-! ### Calls -/

omit [DecidableEq Proc] in
/-- A new item of a table is the resolver's, or it is a choice. -/
theorem choices_item {proc : Proc} {item : AddrEndpoint}
    (items : p'.table.items = (s.host proc).process.table.items ++ [item]) :
    (s.choices proc p' = [] ∧ ∃ t, s.resolver = some t ∧ item ∈ t.items) ∨
      s.choices proc p' = [⟨proc, (s.host proc).role, item.addr, item.endpoint⟩] ∧
        ¬ ((s.host proc).process.client = true ∧
          answer s.resolver item.addr = some item.endpoint) := by
  have added : p'.table.items.drop (s.host proc).process.table.items.length = [item] := by
    rw [items, List.drop_left]
  by_cases learnt : (s.host proc).process.client = true ∧
      answer s.resolver item.addr = some item.endpoint
  · obtain ⟨t, there, found⟩ := Option.bind_eq_some_iff.mp learnt.2
    obtain ⟨listed, mem, addr, endpoint⟩ := find_eq_some found
    obtain rfl : listed = item := AddrEndpoint.ext addr endpoint
    refine .inl ⟨?_, t, there, mem⟩
    simp only [Hosts.choices, added, List.filter_singleton, learnt, and_self, not_true_eq_false,
      decide_false, cond_false, List.map_nil]
  · refine .inr ⟨?_, learnt⟩
    simp only [Hosts.choices, added, List.filter_singleton, learnt, not_false_eq_true,
      decide_true, cond_true, List.map_cons, List.map_nil]

omit [DecidableEq Proc] in
/-- What a call chooses: nothing, or the one item it adds to the table. -/
theorem choices_cases {proc : Proc} (learns : Learns s.resolver (s.host proc).process p') :
    (s.choices proc p' = [] ∧ (p' = (s.host proc).process ∨
      ∃ t item, s.resolver = some t ∧ item ∈ t.items ∧
        p'.table.items = (s.host proc).process.table.items ++ [item])) ∨
    ∃ item, s.choices proc p' = [⟨proc, (s.host proc).role, item.addr, item.endpoint⟩] ∧
      p'.table.items = (s.host proc).process.table.items ++ [item] := by
  cases learns with
  | same is =>
      subst is
      refine .inl ⟨?_, .inl rfl⟩
      simp [Hosts.choices]
  | @asked t addr endpoint client there x absent found inserted still =>
      obtain ⟨item, rfl, rfl, items⟩ := items_insert inserted
      rcases choices_item items with ⟨none, t, there, mem⟩ | ⟨-, own⟩
      · exact .inl ⟨none, .inr ⟨t, item, there, mem, items⟩⟩
      · exact absurd ⟨client, by rw [there]; exact found⟩ own
  | chose x absent inserted still =>
      obtain ⟨item, rfl, rfl, items⟩ := items_insert inserted
      rcases choices_item items with ⟨none, t, there, mem⟩ | ⟨one, -⟩
      · exact .inl ⟨none, .inr ⟨t, item, there, mem, items⟩⟩
      · exact .inr ⟨item, one, items⟩

theorem Learns.grows (learns : Learns resolver p p') (sound : p.table.Sound) :
    p.table.items <+: p'.table.items ∧ p'.table.Sound := by
  cases learns with
  | same is =>
      subst is
      exact ⟨List.prefix_rfl, sound⟩
  | asked _ _ x absent _ inserted _ => exact sound.insert x absent inserted
  | chose x absent inserted _ => exact sound.insert x absent inserted

theorem grows_returns {proc : Proc} (grown : (s.host proc).process.table.items <+: p'.table.items) :
    Grows s (s.returns proc p') := by
  intro other
  by_cases here : other = proc
  · subst here
    simpa only [Hosts.returns, Hosts.setHost, Function.update_self] using grown
  · simp only [Hosts.returns, Hosts.setHost, Function.update_of_ne here, List.prefix_rfl]

omit [DecidableEq Proc] in
/-- What is new in a table was chosen now, or is in the resolver's table. -/
theorem Tabled.origin_new (tabled : Tabled s) {proc : Proc}
    (learns : Learns s.resolver (s.host proc).process p') {item : AddrEndpoint}
    (mem : item ∈ p'.table.items) : item ∈ (s.host proc).process.table.items ∨
      ∃ c ∈ s.chosen ++ s.choices proc p', c.addr = item.addr ∧ c.endpoint = item.endpoint := by
  rcases choices_cases learns with ⟨-, same | ⟨t, added, there, listed, items⟩⟩ |
    ⟨added, chosen, items⟩
  · exact .inl (same ▸ mem)
  · rw [items] at mem
    rcases List.mem_append.mp mem with old | single
    · exact .inl old
    · obtain rfl := List.mem_singleton.mp single
      obtain ⟨server, -, rfl⟩ := Option.map_eq_some_iff.mp there
      obtain ⟨c, was, same⟩ := tabled.origin server _ listed
      exact .inr ⟨c, List.mem_append_left _ was, same⟩
  · rw [items] at mem
    rcases List.mem_append.mp mem with old | single
    · exact .inl old
    · obtain rfl := List.mem_singleton.mp single
      exact .inr ⟨_, List.mem_append_right _ (chosen ▸ List.mem_singleton_self _), rfl, rfl⟩

theorem Tabled.returns (tabled : Tabled s) {proc : Proc}
    (learns : Learns s.resolver (s.host proc).process p') : Tabled (s.returns proc p') := by
  obtain ⟨grown, sound⟩ := learns.grows (tabled.sound proc)
  have still : Grows s (s.returns proc p') := grows_returns grown
  constructor
  · intro other
    by_cases here : other = proc
    · subst here
      simpa only [Hosts.returns, Hosts.setHost, Function.update_self] using sound
    · simpa only [Hosts.returns, Hosts.setHost, Function.update_of_ne here]
        using tabled.sound other
  · intro other item mem
    have old : item ∈ (s.host other).process.table.items →
        ∃ c ∈ s.chosen ++ s.choices proc p', c.addr = item.addr ∧ c.endpoint = item.endpoint := by
      intro mem
      obtain ⟨c, was, same⟩ := tabled.origin other item mem
      exact ⟨c, List.mem_append_left _ was, same⟩
    by_cases here : other = proc
    · subst here
      simp only [Hosts.returns, Hosts.setHost, Function.update_self] at mem
      exact (tabled.origin_new learns mem).elim old id
    · simp only [Hosts.returns, Hosts.setHost, Function.update_of_ne here] at mem
      exact old mem
  · intro c mem
    rcases List.mem_append.mp mem with was | chosen
    · obtain ⟨item, listed, same⟩ := tabled.kept c was
      exact ⟨item, (still c.proc).subset listed, same⟩
    · rcases choices_cases learns with ⟨none, -⟩ | ⟨item, one, items⟩
      · rw [none] at chosen
        cases chosen
      · rw [one] at chosen
        obtain rfl := List.mem_singleton.mp chosen
        refine ⟨item, ?_, rfl, rfl⟩
        simp [Hosts.returns, Hosts.setHost, items]

theorem Ported.returns (ported : Ported s) {proc : Proc}
    (running : (s.host proc).running = true)
    (learns : Learns s.resolver (s.host proc).process p') : Ported (s.returns proc p') := by
  have still : Ported (s.setHost proc { s.host proc with process := p' }) := by
    refine ported.setHost ?_ (ported.serving proc)
    rw [learns.client]
    exact ported.client proc
  refine ⟨still.client, still.serving, fun c mem served => ?_⟩
  rcases List.mem_append.mp mem with was | chosen
  · exact ported.choosers c was served
  · rcases choices_cases learns with ⟨none, -⟩ | ⟨item, one, -⟩
    · rw [none] at chosen
      cases chosen
    · rw [one] at chosen
      obtain rfl := List.mem_singleton.mp chosen
      exact .inl (ported.serving proc running served)

/-! ### Steps and runs -/

/-- A process that starts gets the port if it is free, and otherwise becomes a client or stays
alone. -/
theorem init_cases {proc : Proc} {fails : Bool} {connect : Int}
    (taken : hostStep s (.init proc fails connect) = some s') :
    (s.host proc).running = true ∧ (s.host proc).role = .alone ∧
    ((s.port = none ∧ s' =
        { s.setHost proc { s.host proc with role := .serving } with port := some proc }) ∨
      s' = s.setHost proc
        { s.host proc with
          process := { (s.host proc).process with client := true }
          role := .asking } ∨
      s' = s.setHost proc { s.host proc with
        role := if (s.host proc).process.client then .asking else .alone }) := by
  obtain ⟨⟨running, alone⟩, taken⟩ := Option.ite_none_right_eq_some.mp taken
  refine ⟨running, alone, ?_⟩
  obtain rfl := Option.some.inj taken
  cases fails with
  | true => exact .inr (.inr rfl)
  | false =>
      cases port : s.port with
      | none =>
          have free : s.bindFailure false = none := by simp [Hosts.bindFailure, port]
          rw [free]
          exact .inl ⟨rfl, rfl⟩
      | some server =>
          have used : s.bindFailure false = some .addrInUse := by simp [Hosts.bindFailure, port]
          rw [used]
          simp only [Bool.false_eq_true, if_false, if_true, ← port]
          exact .inr (.inl rfl)

theorem Ported.init (ported : Ported s) {proc : Proc} {fails : Bool} {connect : Int}
    (taken : hostStep s (.init proc fails connect) = some s') : Ported s' := by
  obtain ⟨-, alone, ⟨free, rfl⟩ | rfl | rfl⟩ := init_cases taken
  · have own : (s.host proc).process.client = false := by
      rw [← Bool.not_eq_true, ported.client, alone]
      exact Role.noConfusion
    refine ⟨fun other => ?_, fun other runs serves => ?_, fun c mem served => ?_⟩
    · by_cases here : other = proc
      · subst here
        simp [Hosts.setHost, own]
      · simpa only [Hosts.setHost, Function.update_of_ne here] using ported.client other
    · by_cases here : other = proc
      · exact here ▸ rfl
      · simp only [Hosts.setHost, Function.update_of_ne here] at runs serves
        cases free.symm.trans (ported.serving other runs serves)
    · rcases ported.choosers c mem served with port | ended
      · cases free.symm.trans port
      · exact .inr ended
  · exact ported.setHost (by simp) fun _ serves => Role.noConfusion serves
  · have own : (s.host proc).process.client = false := by
      rw [← Bool.not_eq_true, ported.client, alone]
      exact Role.noConfusion
    exact ported.setHost (by simp [own]) fun _ serves => by simp [own] at serves

theorem init_table {proc : Proc} {fails : Bool} {connect : Int}
    (taken : hostStep s (.init proc fails connect) = some s') :
    (∀ other, (s'.host other).process.table = (s.host other).process.table) ∧
      s'.chosen = s.chosen := by
  obtain ⟨-, -, ⟨-, rfl⟩ | rfl | rfl⟩ := init_cases taken
  · exact ⟨fun other => setHost_table proc (by rfl) other, rfl⟩
  · exact ⟨fun other => setHost_table proc (by rfl) other, rfl⟩
  · exact ⟨fun other => setHost_table proc (by rfl) other, rfl⟩

/-- What a call does to the processes: the one that makes it learns or stops, and the one that
has the port may stop. -/
theorem call_cases {proc : Proc} {call : HostCall}
    (taken : hostStep s (.call proc call) = some s') :
    (s.host proc).running = true ∧ ∃ after,
      ((∃ p, Learns s.resolver (s.host proc).process p ∧ after = s.returns proc p) ∨
        after = s.stop proc) ∧ (s' = after ∨ s' = after.endResolver) := by
  simp only [hostStep] at taken
  split at taken
  case isFalse => cases taken
  rename_i running
  refine ⟨running, ?_⟩
  generalize outcome : call.run s.resolver (s.host proc).process = out at taken
  obtain ⟨resolver, returned⟩ := out
  obtain rfl := Option.some.inj taken
  refine ⟨_, ?_, (em _).imp (if_pos ·) (if_neg ·)⟩
  cases returned with
  | some p => exact .inl ⟨p, HostCall.run_learns outcome, rfl⟩
  | none => exact .inr rfl

theorem Ported.endResolver (ported : Ported s) : Ported s.endResolver := by
  unfold Hosts.endResolver
  split
  · exact ported
  · exact ported.stop _

theorem endResolver_table (s : Hosts Proc) (other : Proc) :
    (s.endResolver.host other).process.table = (s.host other).process.table ∧
      s.endResolver.chosen = s.chosen := by
  unfold Hosts.endResolver
  split
  · exact ⟨rfl, rfl⟩
  · exact ⟨stop_table s _ other, rfl⟩

/-- What one step keeps. -/
theorem step_keeps {l : HostStep Proc} (tabled : Tabled s) (ported : Ported s)
    (taken : hostStep s l = some s') : Tabled s' ∧ Ported s' ∧ Grows s s' := by
  -- the steps that write to no table
  have quiet (tables : ∀ other, (s'.host other).process.table = (s.host other).process.table)
      (chosen : s'.chosen = s.chosen) : Tabled s' ∧ Grows s s' :=
    ⟨tabled.frame tables chosen, fun other => (tables other).symm ▸ List.prefix_rfl⟩
  cases l with
  | init proc fails connect =>
      obtain ⟨tables, chosen⟩ := init_table taken
      obtain ⟨tabled', grows⟩ := quiet tables chosen
      exact ⟨tabled', ported.init taken, grows⟩
  | call proc call =>
      obtain ⟨running, after, done, ends⟩ := call_cases taken
      have kept : Tabled after ∧ Ported after ∧ Grows s after := by
        rcases done with ⟨p, learns, rfl⟩ | rfl
        · exact ⟨tabled.returns learns, ported.returns running learns,
            grows_returns (learns.grows (tabled.sound proc)).1⟩
        · exact ⟨tabled.frame (stop_table s proc) rfl, ported.stop proc,
            fun other => (stop_table s proc other).symm ▸ List.prefix_rfl⟩
      rcases ends with rfl | rfl
      · exact kept
      · obtain ⟨tabled', ported', grows⟩ := kept
        refine ⟨tabled'.frame (fun other => (endResolver_table after other).1)
          (endResolver_table after proc).2, ported'.endResolver, fun other => ?_⟩
        exact (endResolver_table after other).1.symm ▸ grows other
  | close proc =>
      obtain ⟨⟨-, serves⟩, taken⟩ := Option.ite_none_right_eq_some.mp taken
      obtain rfl := Option.some.inj taken
      obtain ⟨tabled', grows⟩ := quiet (leave_table proc (by rfl)) rfl
      have own : ¬ (s.host proc).process.client = true := by
        rw [ported.client, serves]
        exact Role.noConfusion
      exact ⟨tabled', ported.leave (by simp [own]) fun _ => Role.noConfusion, grows⟩
  | stop proc =>
      obtain ⟨-, taken⟩ := Option.ite_none_right_eq_some.mp taken
      obtain rfl := Option.some.inj taken
      obtain ⟨tabled', grows⟩ := quiet (stop_table s proc) rfl
      exact ⟨tabled', ported.stop proc, grows⟩

theorem kept_of_reachable (reach : Reachable (hosts Proc) s) : Tabled s ∧ Ported s := by
  refine reach.invariant (fun s => Tabled s ∧ Ported s) ⟨⟨?_, ?_, ?_⟩, ?_, ?_, ?_⟩ ?_
  · exact fun _ => ⟨List.nodup_nil, fun _ => (absurd · List.not_mem_nil)⟩
  · exact fun _ _ => (absurd · List.not_mem_nil)
  · exact fun _ => (absurd · List.not_mem_nil)
  · intro proc
    simp [hosts]
  · intro proc _ serves
    cases serves
  · exact fun _ => (absurd · List.not_mem_nil)
  · intro s l s' kept taken
    obtain ⟨tabled, ported, -⟩ := step_keeps kept.1 kept.2 taken
    exact ⟨tabled, ported⟩

end ZmqPractices.CzmqX
