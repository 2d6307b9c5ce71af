import ZmqPractices.CzmqX.Sockets
import ZmqPractices.ZmqX.Coherence

/-!
Binding an address again (`czmq_x.c`, `zmq_x.c`).

One process binds and unbinds named endpoints, through either library. A successful bind
adds the address to its table and a successful unbind leaves it there, where `zmq_bind_x`
takes it for the endpoint to bind again and `zsocket_bind_x` for one that is bound. So
the two disagree on exactly the addresses that were bound and are not.
-/

namespace ZmqPractices.CzmqX

open Czmq ZmqX Lib

/-- The process, the resolver that it asks if it is a client, the sockets that hold an address,
and every address that has been bound. -/
structure Binding where
  process : Process
  resolver : Option Endpoints
  holders : List (CString × Nat)
  boundBefore : List CString
deriving DecidableEq

/-- The calls that bind and unbind, and what the libraries below answer. -/
inductive Call where
  | zsocketBind (socket : Nat) (text : CString) (below : Below)
  | zsocketUnbind (socket : Nat) (text : CString) (below : Below)
  | zmqBind (socket : Nat) (addr : CString) (below : Below)
  | zmqUnbind (socket : Nat) (addr : CString) (below : Below)

/-- The address of a call, as the table sees it. -/
def Call.addr : Call → CString
  | .zsocketBind _ text _ | .zsocketUnbind _ text _ => format text
  | .zmqBind _ addr _ | .zmqUnbind _ addr _ => addr

def Binding.hold (s : Binding) (addr : CString) (socket : Nat) : Binding :=
  { s with holders := (addr, socket) :: s.holders, boundBefore := addr :: s.boundBefore }

def Binding.release (s : Binding) (addr : CString) (socket : Nat) : Binding :=
  { s with holders := s.holders.erase (addr, socket) }

/-- A call that returns; calls for addresses that are not named endpoints are left out. -/
def bindStep (s : Binding) (call : Call) : Option Binding :=
  if isXAddr call.addr then
    match call with
    | .zsocketBind socket text below =>
        let (resolver, returned) := zsocketBindX below s.resolver s.process text
        returned.map fun (result, p) =>
          let s := { s with process := p, resolver := resolver }
          match result with
          | .bound _ => s.hold (format text) socket
          | _ => s
    | .zsocketUnbind socket text below =>
        let (resolver, returned) := zsocketUnbindX below s.resolver s.process text
        returned.map fun (rc, p) =>
          let s := { s with process := p, resolver := resolver }
          if rc = 0 then s.release (format text) socket else s
    | .zmqBind socket addr below =>
        let (resolver, returned) := zmqBindX below.toZmq below.query s.resolver s.process addr
        returned.map fun (rc, p) =>
          let s := { s with process := p, resolver := resolver }
          if rc = 0 then s.hold addr socket else s
    | .zmqUnbind socket addr below =>
        let (resolver, returned) := zmqUnbindX below.unbind below.query s.resolver s.process addr
        returned.map fun (rc, p) =>
          let s := { s with process := p, resolver := resolver }
          if rc = 0 then s.release addr socket else s
  else none

/-- A process from its start, a client of this resolver or not. -/
def bindings (resolver : Option Endpoints) (client : Bool) : System Binding Call where
  start := ⟨⟨.empty, client⟩, resolver, [], []⟩
  step := bindStep

/-- The address has been bound here; or a client has its endpoint, or its query brings it. -/
def BoundBefore (s : Binding) (query : Query) (addr : CString) : Prop :=
  addr ∈ s.boundBefore ∨ s.process.client = true ∧ Mapped query s.resolver s.process addr

section

-- what other processes bind
variable (elsewhere : List CString)

/-- The address is bound to a socket now, here or in another process. -/
def Bound (s : Binding) (addr : CString) : Prop :=
  addr ∈ s.holders.map Prod.fst ∨ addr ∈ elsewhere

/-- The bind is refused exactly if the address is bound now; and if it is not bound, the
bind succeeds when `zmq_bind_x` would. -/
def Agrees (s : Binding) : Call → Prop
  | .zsocketBind _ text below =>
      ∀ result p, (zsocketBindX below s.resolver s.process text).2 = some (result, p) →
        (result = .boundAlready ↔ Bound elsewhere s (format text)) ∧
          (¬ Bound elsewhere s (format text) →
            (∃ p', (zmqBindX below.toZmq below.query s.resolver s.process (format text)).2 =
              some (0, p')) → ∃ port, result = .bound port)
  | _ => True

/-- The address of a bind has been bound before exactly if it is bound now. -/
def NeverFreed (s : Binding) : Call → Prop
  | .zsocketBind _ text below =>
      BoundBefore s below.lookup (format text) ↔ Bound elsewhere s (format text)
  | _ => True

end

/-- The endpoints in the table are those of addresses that have been bound, and for a client
also what it has been brought. -/
def Tracked (s : Binding) : Prop :=
  ∀ addr, (s.process.client = false → (s.process.table.find addr).isSome →
      addr ∈ s.boundBefore) ∧
    (addr ∈ s.boundBefore → (s.process.table.find addr).isSome)

variable {resolver : Option Endpoints} {elsewhere : List CString} {s s' : Binding}
  {query : Query} {addr : CString}

theorem Tracked.mapped (tracked : Tracked s) :
    Mapped query s.resolver s.process addr ↔ BoundBefore s query addr := by
  obtain ⟨known, kept⟩ := tracked addr
  refine ⟨fun mapped => ?_, fun before => before.elim (fun bound => .inl (kept bound)) And.right⟩
  cases client : s.process.client with
  | true => exact .inr ⟨client, mapped⟩
  | false =>
      rcases mapped with found | ⟨asks, -⟩
      · exact .inl (known client found)
      · cases client.symm.trans asks

/-- A call that maps its address if it was mapped or if it binds it (`new`). -/
theorem Tracked.keeps {p : Process} (new : Prop) (tracked : Tracked s)
    (keeps : Keeps s.process p addr (Mapped query s.resolver s.process addr ∨ new))
    (process : s'.process = p)
    (before : ∀ a, a ∈ s'.boundBefore ↔ a ∈ s.boundBefore ∨ a = addr ∧ new) : Tracked s' := by
  intro a
  obtain ⟨known, kept⟩ := tracked a
  rw [process, keeps.find, before, keeps.client]
  refine ⟨fun own mapped => ?_, fun bound => ?_⟩
  · rcases mapped with found | ⟨rfl, was | new⟩
    · exact .inl (known own found)
    · rcases tracked.mapped.mp was with bound | ⟨client, -⟩
      · exact .inl bound
      · cases own.symm.trans client
    · exact .inr ⟨rfl, new⟩
  · exact bound.imp kept fun binds => ⟨binds.1, .inr binds.2⟩

/-- A call that binds nothing. -/
theorem Tracked.unbound {p : Process} {maps : Prop} (tracked : Tracked s)
    (keeps : Keeps s.process p addr maps)
    (same : maps ↔ Mapped query s.resolver s.process addr) (process : s'.process = p)
    (before : s'.boundBefore = s.boundBefore) : Tracked s' :=
  tracked.keeps False (keeps.congr (same.trans (or_false _).symm.to_iff)) process
    (by simp [before])

theorem Tracked.step {call : Call} (tracked : Tracked s)
    (taken : bindStep s call = some s') : Tracked s' := by
  unfold bindStep at taken
  split at taken
  case isFalse => cases taken
  rename_i x
  cases call with
  | zsocketBind socket text below =>
      have x : isXAddr (format text) := x
      obtain ⟨⟨result, p⟩, returned, rfl⟩ := Option.map_eq_some_iff.mp taken
      rcases zsocketBindX_cases x (Prod.ext rfl returned) with
        ⟨mapped, rfl, endpoint, looked⟩ | ⟨rc, bound, -, outcome⟩
      · obtain ⟨-, -, -, keeps⟩ := zmqEndpointX_mapped x (Prod.ext rfl looked)
        exact tracked.unbound keeps (iff_of_true rfl mapped) rfl rfl
      · have keeps := zmqBindX_keeps x (Prod.ext rfl bound)
        rcases outcome with ⟨failed, rfl⟩ | ⟨rfl, port, rfl⟩
        · exact tracked.unbound keeps (or_iff_left failed) rfl rfl
        · refine tracked.keeps (0 = 0) keeps rfl fun a => ?_
          simp [Binding.hold, or_comm]
  | zsocketUnbind socket text below =>
      obtain ⟨⟨rc, p⟩, returned, rfl⟩ := Option.map_eq_some_iff.mp taken
      have keeps := zsocketUnbindX_keeps x (Prod.ext rfl returned)
      dsimp only
      split <;> exact tracked.unbound keeps Iff.rfl rfl rfl
  | zmqBind socket addr below =>
      have x : isXAddr addr := x
      obtain ⟨⟨rc, p⟩, returned, rfl⟩ := Option.map_eq_some_iff.mp taken
      have keeps := zmqBindX_keeps x (Prod.ext rfl returned)
      dsimp only
      refine tracked.keeps (rc = 0) keeps ?_ fun a => ?_
      · split <;> rfl
      · split
        · rename_i bound
          simp [Binding.hold, bound, or_comm]
        · rename_i failed
          simp [failed]
  | zmqUnbind socket addr below =>
      obtain ⟨⟨rc, p⟩, returned, rfl⟩ := Option.map_eq_some_iff.mp taken
      have keeps := zmqUnbindX_keeps x (Prod.ext rfl returned)
      dsimp only
      split <;> exact tracked.unbound keeps Iff.rfl rfl rfl

theorem tracked_start (client : Bool) : Tracked (bindings resolver client).start :=
  fun _ => ⟨fun _ => (nomatch ·), (nomatch ·)⟩

/-- A call that returns agrees exactly if its address was never freed. -/
theorem agrees_iff {call : Call} (tracked : Tracked s) (taken : bindStep s call = some s') :
    Agrees elsewhere s call ↔ NeverFreed elsewhere s call := by
  unfold bindStep at taken
  split at taken
  case isFalse => cases taken
  rename_i x
  cases call with
  | zsocketBind socket text below =>
      have x : isXAddr (format text) := x
      obtain ⟨⟨result, p⟩, returned, -⟩ := Option.map_eq_some_iff.mp taken
      have only : ∀ result' p', (zsocketBindX below s.resolver s.process text).2 =
          some (result', p') → result' = result := fun result' p' returned' => by
        cases returned.symm.trans returned'
        rfl
      simp only [NeverFreed, ← tracked.mapped]
      rcases zsocketBindX_cases x (Prod.ext rfl returned) with
        ⟨mapped, rfl, -⟩ | ⟨rc, bound, unmapped, outcome⟩
      · refine ⟨fun agrees => ?_, fun same result' p' returned' => ?_⟩
        · exact iff_of_true mapped ((agrees _ _ returned).1.mp rfl)
        · obtain rfl := only result' p' returned'
          exact ⟨iff_of_true rfl (same.mp mapped), fun free => absurd (same.mp mapped) free⟩
      · refine ⟨fun agrees => ?_, fun same result' p' returned' => ?_⟩
        · refine iff_of_false unmapped fun held => ?_
          have refused := (agrees _ _ returned).1.mpr held
          rcases outcome with ⟨-, rfl⟩ | ⟨-, port, rfl⟩ <;> cases refused
        · obtain rfl := only result' p' returned'
          refine ⟨iff_of_false ?_ fun held => unmapped (same.mpr held), fun _ would => ?_⟩
          · rcases outcome with ⟨-, rfl⟩ | ⟨-, port, rfl⟩ <;> exact Bind.noConfusion
          · obtain ⟨p', succeeds⟩ := would
            rw [bound] at succeeds
            cases succeeds
            rcases outcome with ⟨failed, -⟩ | ⟨-, port⟩
            · exact absurd rfl failed
            · exact port
  | zsocketUnbind => exact Iff.rfl
  | zmqBind => exact Iff.rfl
  | zmqUnbind => exact Iff.rfl

/-- **Rebinding.** In a process that binds and unbinds named endpoints, every
`zsocket_bind_x` refuses its address exactly if it is bound, and binds one that is not when
`zmq_bind_x` would, exactly when no `zsocket_bind_x` is called for an address that was
bound before and is bound no more, and none for one that only another process has bound
and this one does not learn of. -/
theorem rebind_iff (resolver : Option Endpoints) (elsewhere : List CString) (client : Bool)
    {past : List (Binding × Call)} {s : Binding} (run : Run (bindings resolver client) past s) :
    EachStep (Agrees elsewhere) past ↔ EachStep (NeverFreed elsewhere) past := by
  have tracked := run.invariant Tracked (tracked_start client)
    fun s call s' tracked taken => tracked.step taken
  refine forall₂_congr fun step mem => ?_
  obtain ⟨s', taken⟩ := run.defined mem
  exact agrees_iff (tracked.2 step mem) taken

instance (s : Binding) : (call : Call) → Decidable (NeverFreed elsewhere s call)
  | .zsocketBind _ _ _ =>
      inferInstanceAs (Decidable ((_ ∨ _ ∧ (_ = true ∨ _ ∧ _ = _ ∧ _ = true)) ↔ (_ ∨ _)))
  | .zsocketUnbind _ _ _ | .zmqBind _ _ _ | .zmqUnbind _ _ _ => .isTrue trivial

/-- Libraries below that bind and unbind everything they are asked to. -/
def willing : Below where
  toZmq := firstPort
  lookup := .completed
  query := .completed
  again := .completed
  unbind _ := 0
  zsocketBind _ := 0
  zsocketUnbind _ := 0
  fails := nofun

/-- One socket binds the address, a second is refused while the first holds it, and the first
unbinds it. -/
theorem rebind_iff_held : ∃ held s s' : Binding,
    let past := [(s, Call.zsocketUnbind 0 ipcA willing), (held, .zsocketBind 1 ipcA willing),
      ((bindings none false).start, .zsocketBind 0 ipcA willing)]
    Run (bindings none false) past s' ∧ held.holders = [(ipcA, 0)] ∧ s'.holders = [] ∧
      (zsocketBindX willing held.resolver held.process ipcA).2.map Prod.fst =
        some .boundAlready ∧
      EachStep (Agrees []) past := by
  have ran : (((bindings none false).step (bindings none false).start
        (.zsocketBind 0 ipcA willing)).bind fun held =>
      ((bindings none false).step held (.zsocketBind 1 ipcA willing)).bind fun s =>
        ((bindings none false).step s (.zsocketUnbind 0 ipcA willing)).map fun s' =>
          (held.holders, s'.holders,
            (zsocketBindX willing held.resolver held.process ipcA).2.map Prod.fst,
            decide (NeverFreed [] (bindings none false).start (.zsocketBind 0 ipcA willing)),
            decide (NeverFreed [] held (.zsocketBind 1 ipcA willing)))) =
      some ([(ipcA, 0)], [], some .boundAlready, true, true) := by
    decide
  obtain ⟨held, first, ran⟩ := Option.bind_eq_some_iff.mp ran
  obtain ⟨s, second, ran⟩ := Option.bind_eq_some_iff.mp ran
  obtain ⟨s', third, seen⟩ := Option.map_eq_some_iff.mp ran
  simp only [Prod.mk.injEq, decide_eq_true_eq] at seen
  obtain ⟨holds, free, refused, fresh, bound⟩ := seen
  have run := ((Run.start.next first).next second).next third
  refine ⟨held, s, s', run, holds, free, refused, (rebind_iff none [] false run).mpr ?_⟩
  exact eachStep_cons.mpr ⟨trivial, eachStep_cons.mpr ⟨bound, eachStep_cons.mpr
    ⟨fresh, eachStep_nil⟩⟩⟩

/-- The address is bound and unbound; no socket holds it, `zmq_bind_x` would bind it again,
and `zsocket_bind_x` refuses it as bound already. -/
theorem freed_refused : ∃ (past : List (Binding × Call)) (s : Binding),
    Run (bindings none false) past s ∧ s.holders = [] ∧
      (zsocketBindX willing s.resolver s.process ipcA).2.map Prod.fst = some .boundAlready ∧
      (zmqBindX willing.toZmq willing.query s.resolver s.process ipcA).2.map Prod.fst = some 0 ∧
      ¬ Agrees [] s (.zsocketBind 0 ipcA willing) := by
  have ran : ((bindings none false).record [] (bindings none false).start
      [.zsocketBind 0 ipcA willing, .zsocketUnbind 0 ipcA willing]).map
      (fun out => (out.2.holders,
        (zsocketBindX willing out.2.resolver out.2.process ipcA).2.map Prod.fst,
        (zmqBindX willing.toZmq willing.query out.2.resolver out.2.process ipcA).2.map
          Prod.fst)) =
        some ([], some .boundAlready, some 0) := by
    decide
  obtain ⟨⟨past, s⟩, done, seen⟩ := Option.map_eq_some_iff.mp ran
  simp only [Prod.mk.injEq] at seen
  obtain ⟨free, refused, would⟩ := seen
  refine ⟨past, s, Run.start.record done, free, refused, would, fun agrees => ?_⟩
  obtain ⟨⟨result, p⟩, returned, rfl⟩ := Option.map_eq_some_iff.mp refused
  have held := (agrees _ _ returned).1.mp rfl
  simp [Bound, free] at held

end ZmqPractices.CzmqX
