import ZmqPractices.Lib.Printed
import ZmqPractices.ZmqX.Resolver

/-!
Binding named endpoints from CZMQ sockets (`czmq_x.c`).

`zsocket_bind_x` asks `zmq_endpoint_x` whether the address is mapped, and takes a mapped
address for one that is bound. The lemmas say for each call which addresses are mapped
afterwards: `Mapped` ones stay so, and only a bind maps another.
-/

namespace ZmqPractices.CzmqX

open Czmq Lib ZmqX

/-! ### The wrappers -/

/-- `vsnprintf` into a buffer of 256 bytes. -/
def format (text : CString) : CString where
  bytes := text.bytes.take 255
  nulFree mem := text.nulFree (List.mem_of_mem_take mem)

/-- `strrchr (string, ':') + 1`; `none` where there is no colon to point behind. -/
def afterColon (bytes : Frame) : Option Frame :=
  if 0x3a ∈ bytes then some (bytes.reverse.takeWhile (· ≠ 0x3a)).reverse else none

/-- What the libraries below answer; a `zmq_bind` that fails does not answer zero. A call can
ask the resolver in its first lookup, in the call of `zmq_x.c` that it makes (`query`), and
once more (`again`). -/
structure Below extends Zmq where
  lookup : Query
  query : Query
  again : Query
  unbind : CString → Int
  zsocketBind : CString → Int
  zsocketUnbind : CString → Int
  fails : bindAny ≠ .error 0

/-- The ways through `zsocket_bind_x`. -/
inductive Bind where
  | plain (rc : Int)
  | failed
  | bound (port : Int)
  | boundAlready
deriving DecidableEq, Repr

/-- What it returns. -/
def Bind.rc : Bind → Int
  | .plain rc => rc
  | .failed => -1
  | .bound port => port
  | .boundAlready => -1

section

variable (below : Below) (resolver : Option Endpoints) (p : Process) (text : CString)

def zsocketBindX : Option Endpoints × Option (Bind × Process) :=
  let addr := format text
  if isXAddr addr then
    match zmqEndpointX below.lookup resolver p addr with
    | (resolver, none) => (resolver, none)
    | (resolver, some (none, p)) =>
        match zmqBindX below.toZmq below.query resolver p addr with
        | (resolver, none) => (resolver, none)
        | (resolver, some (rc, p)) =>
            if rc ≠ 0 then (resolver, some (.failed, p))
            else
              match zmqEndpointX below.again resolver p addr with
              | (resolver, some (some endpoint, p)) =>
                  (resolver, (afterColon endpoint.bytes).map fun port => (.bound (atoi port), p))
              | (resolver, _) => (resolver, none)
    | (resolver, some (some _, p)) => (resolver, some (.boundAlready, p))
  else (resolver, some (.plain (below.zsocketBind addr), p))

def zsocketUnbindX : Option Endpoints × Option (Int × Process) :=
  let addr := format text
  if isXAddr addr then
    match zmqEndpointX below.lookup resolver p addr with
    | (resolver, none) => (resolver, none)
    | (resolver, some (none, p)) => (resolver, some (-1, p))
    | (resolver, some (some _, p)) => zmqUnbindX below.unbind below.query resolver p addr
  else (resolver, some (below.zsocketUnbind addr, p))

end

/-! ### Which addresses are mapped -/

/-- What the resolver has for the address. -/
def answer (resolver : Option Endpoints) (addr : CString) : Option CString :=
  resolver.bind fun t => t.find addr

/-- The process has an endpoint for the address, or its query brings one. -/
def Mapped (query : Query) (resolver : Option Endpoints) (p : Process) (addr : CString) : Prop :=
  (p.table.find addr).isSome ∨
    p.client = true ∧ query = .completed ∧ (answer resolver addr).isSome

/-- A call that maps nothing but perhaps this address: `maps` says whether it does. -/
structure Keeps (p p' : Process) (addr : CString) (maps : Prop) : Prop where
  client : p'.client = p.client
  find : ∀ a, (p'.table.find a).isSome ↔ (p.table.find a).isSome ∨ a = addr ∧ maps

variable {query : Query} {resolver resolver' : Option Endpoints} {p p' : Process} {addr : CString}

theorem Keeps.refl {maps : Prop} (mapped : maps → (p.table.find addr).isSome) :
    Keeps p p addr maps where
  client := rfl
  find _ := ⟨.inl, fun is => is.elim id fun new => new.1 ▸ mapped new.2⟩

/-- Two ways to say whether the call maps its address. -/
theorem Keeps.congr {maps maps' : Prop} (keeps : Keeps p p' addr maps) (same : maps ↔ maps') :
    Keeps p p' addr maps' where
  client := keeps.client
  find a := by rw [keeps.find, same]

theorem isSome_find {t : Endpoints} :
    (t.find addr).isSome ↔ ∃ item ∈ t.items, item.addr = addr := by
  rw [Option.isSome_iff_ne_none, ne_eq, find_eq_none]
  simp

theorem keeps_insert {endpoint : CString} {maps : Prop} (is : maps)
    (client : p'.client = p.client)
    (inserted : insertEndpointItem p.table addr endpoint = some p'.table) :
    Keeps p p' addr maps where
  client := client
  find a := by
    obtain ⟨item, rfl, -, items⟩ := items_insert inserted
    simp only [isSome_find, items, List.mem_append, List.mem_singleton, is, and_true]
    constructor
    · rintro ⟨other, mem | rfl, rfl⟩
      · exact .inl ⟨other, mem, rfl⟩
      · exact .inr rfl
    · rintro (⟨other, mem, rfl⟩ | rfl)
      · exact ⟨other, .inl mem, rfl⟩
      · exact ⟨item, .inr rfl, rfl⟩

/-- A resolver without the address does not answer. -/
theorem ask_missing (x : isXAddr addr) (missing : answer resolver addr = none) :
    ask .completed resolver addr = (none, none) := by
  cases resolver with
  | none => rfl
  | some t =>
      have silent : localEndpoint t addr = none := localEndpoint_eq_none.mpr ⟨x, missing⟩
      have gone : ipcServerTask t addr.bytes = none := by
        rw [ipcServerTask_bytes, silent]
        exact ite_self _
      simp only [ask, Option.bind_some, gone, Option.map_none, Option.bind_none]

/-- What a query that returns has brought: the resolver's endpoint; or NULL, if it was
interrupted, and the resolver may have ended. -/
theorem ask_cases (x : isXAddr addr) {endpoint : Option CString}
    (asked : ask query resolver addr = (resolver', some endpoint)) :
    (query = .completed ∧ resolver' = resolver ∧ endpoint.isSome ∧
        endpoint = answer resolver addr) ∨
      query ≠ .completed ∧ endpoint = none ∧ (resolver' = resolver ∨ resolver' = none) := by
  cases query with
  | completed =>
      cases answered : answer resolver addr with
      | none => simp [ask_missing x answered] at asked
      | some known =>
          obtain ⟨t, rfl, found⟩ := Option.bind_eq_some_iff.mp answered
          simp only [ask_found .completed x found, if_true, Prod.mk.injEq, Option.some.injEq]
            at asked
          obtain ⟨rfl, rfl⟩ := asked
          exact .inl ⟨rfl, rfl, rfl, rfl⟩
  | notSent =>
      cases asked
      exact .inr ⟨Query.noConfusion, rfl, .inl rfl⟩
  | notReceived =>
      simp only [ask, Prod.mk.injEq, Option.some.injEq] at asked
      obtain ⟨rfl, rfl⟩ := asked
      refine .inr ⟨Query.noConfusion, rfl, ?_⟩
      cases resolver with
      | none => exact .inl rfl
      | some t =>
          cases replied : ipcServerTask t addr.bytes with
          | none => exact .inr (by simp [replied])
          | some reply => exact .inl (by simp [replied])

/-- `zmq_endpoint_x` finds an endpoint exactly for a mapped address, which is then in the
process's own table. -/
theorem zmqEndpointX_mapped (x : isXAddr addr) {endpoint : Option CString}
    (returned : zmqEndpointX query resolver p addr = (resolver', some (endpoint, p'))) :
    (resolver' = resolver ∨ resolver' = none) ∧
      (endpoint.isSome ↔ Mapped query resolver p addr) ∧
      (endpoint = none → p' = p) ∧ Keeps p p' addr endpoint.isSome := by
  unfold zmqEndpointX at returned
  rw [localEndpoint, if_pos x] at returned
  cases found : p.table.find addr with
  | some known =>
      rw [found] at returned
      cases returned
      exact ⟨.inl rfl, by simp [Mapped, found], by simp, .refl fun _ => by simp [found]⟩
  | none =>
      rw [found] at returned
      cases client : p.client with
      | false =>
          rw [client] at returned
          cases returned
          exact ⟨.inl rfl, by simp [Mapped, found, client], fun _ => rfl, .refl (by simp)⟩
      | true =>
          simp only [client, if_true] at returned
          split at returned
          · cases returned
          · rename_i asked
            cases returned
            rcases ask_cases x asked with ⟨-, -, some, -⟩ | ⟨interrupted, -, kept⟩
            · cases some
            · exact ⟨kept, by simp [Mapped, found, interrupted], fun _ => rfl, .refl (by simp)⟩
          · rename_i known asked
            rcases ask_cases x asked with ⟨completed, rfl, -, answered⟩ | ⟨-, none, -⟩
            · simp only [Prod.mk.injEq, Option.map_eq_some_iff] at returned
              obtain ⟨rfl, table, inserted, rfl, rfl⟩ := returned
              refine ⟨.inl rfl, ?_, by simp, keeps_insert rfl client.symm inserted⟩
              simp [Mapped, client, completed, ← answered]
            · cases none

/-- An address in the process's own table needs no asking. -/
theorem zmqEndpointX_local (x : isXAddr addr) {endpoint : CString}
    (found : p.table.find addr = some endpoint) :
    zmqEndpointX query resolver p addr = (resolver, some (some endpoint, p)) := by
  simp only [zmqEndpointX, localEndpoint, x, if_true, found]

/-- What a call returns when no resolver runs, it returns beside any. -/
theorem zmqEndpointX_without (resolver : Option Endpoints) {out : Option CString × Process}
    {lost : Option Endpoints}
    (returned : zmqEndpointX query none p addr = (lost, some out)) :
    (zmqEndpointX query resolver p addr).2 = some out := by
  by_cases interrupted : query ≠ .completed
  · obtain ⟨_, here⟩ := zmqEndpointX_interrupted interrupted resolver p addr
    obtain ⟨_, there⟩ := zmqEndpointX_interrupted interrupted none p addr
    rw [here, ← (Prod.mk.inj (there.symm.trans returned)).2]
  · obtain rfl := not_not.mp interrupted
    unfold zmqEndpointX at returned ⊢
    split
    · rename_i known
      rw [known] at returned
      exact (Prod.mk.inj returned).2
    · rename_i unknown
      rw [unknown] at returned
      cases client : p.client with
      | false =>
          rw [client] at returned
          exact (Prod.mk.inj returned).2
      | true => simp [client, ask] at returned

/-! ### What the calls do -/

variable {below : Below} {text : CString}

/-- `zmq_bind_x` maps its address if it succeeds. -/
theorem zmqBindX_keeps (x : isXAddr addr) {rc : Int}
    (returned : zmqBindX below.toZmq query resolver p addr = (resolver', some (rc, p'))) :
    Keeps p p' addr (Mapped query resolver p addr ∨ rc = 0) := by
  rw [zmqBindX, if_pos x] at returned
  split at returned
  · cases returned
  · rename_i asked
    obtain ⟨-, mapped, same, -⟩ := zmqEndpointX_mapped x asked
    obtain rfl := same rfl
    obtain ⟨rfl, bound⟩ := Prod.mk.inj returned
    have unmapped : ¬ Mapped _ _ _ addr := mapped.not.mp (by simp)
    rw [bindNewEndpoint] at bound
    split at bound
    · rename_i failed
      cases bound
      exact .refl fun maps => maps.elim (fun is => absurd is unmapped)
        fun zero => absurd (zero ▸ failed) below.fails
    · obtain ⟨table, inserted, made⟩ := Option.map_eq_some_iff.mp bound
      cases made
      exact keeps_insert (.inr rfl) rfl inserted
  · rename_i asked
    obtain ⟨-, mapped, -, keeps⟩ := zmqEndpointX_mapped x asked
    cases returned
    exact keeps.congr (iff_of_true rfl (.inl (mapped.mp rfl)))

theorem zmqBindX_without (resolver : Option Endpoints) {zmq : Zmq} {out : Int × Process}
    {lost : Option Endpoints} (returned : zmqBindX zmq query none p addr = (lost, some out)) :
    (zmqBindX zmq query resolver p addr).2 = some out := by
  unfold zmqBindX at returned ⊢
  split
  · rename_i x
    rw [if_pos x] at returned
    split at returned
    · cases returned
    all_goals
      rename_i asked
      have same := zmqEndpointX_without resolver asked
      generalize zmqEndpointX query resolver p addr = looked at same ⊢
      obtain ⟨resolver', found⟩ := looked
      obtain rfl : found = _ := same
      exact (Prod.mk.inj returned).2
  · rename_i plain
    rw [if_neg plain] at returned
    exact (Prod.mk.inj returned).2

/-- `zsocket_bind_x` refuses a mapped address and binds another as `zmq_bind_x` does. -/
theorem zsocketBindX_cases (x : isXAddr (format text)) {result : Bind}
    (returned : zsocketBindX below resolver p text = (resolver', some (result, p'))) :
    (Mapped below.lookup resolver p (format text) ∧ result = .boundAlready ∧
        ∃ endpoint, (zmqEndpointX below.lookup resolver p (format text)).2 =
          some (some endpoint, p')) ∨
      ∃ rc, (zmqBindX below.toZmq below.query resolver p (format text)).2 = some (rc, p') ∧
        ¬ Mapped below.lookup resolver p (format text) ∧
        ((rc ≠ 0 ∧ result = .failed) ∨ rc = 0 ∧ ∃ port, result = .bound port) := by
  simp only [zsocketBindX, x, if_true] at returned
  split at returned
  · cases returned
  · rename_i asked
    obtain ⟨kept, mapped, same, -⟩ := zmqEndpointX_mapped x asked
    obtain rfl := same rfl
    have unmapped : ¬ Mapped _ _ _ (format text) := mapped.not.mp (by simp)
    split at returned
    · cases returned
    · rename_i bound
      have keeps := zmqBindX_keeps x bound
      -- where the resolver ended in the lookup, the bind was made without one
      have alike := kept.elim (fun same => same ▸ congrArg Prod.snd bound)
        fun lost => zmqBindX_without resolver (lost ▸ bound)
      split at returned
      · rename_i failed
        cases returned
        exact .inr ⟨_, alike, unmapped, .inl ⟨failed, rfl⟩⟩
      · rename_i done
        have rc := not_not.mp done
        obtain ⟨endpoint, found⟩ := Option.isSome_iff_exists.mp
          ((keeps.find (format text)).mpr (.inr ⟨rfl, .inr rc⟩))
        rw [zmqEndpointX_local x found] at returned
        obtain ⟨rfl, pointed⟩ := Prod.mk.inj returned
        obtain ⟨port, -, made⟩ := Option.map_eq_some_iff.mp pointed
        cases made
        exact .inr ⟨_, alike, unmapped, .inr ⟨rc, _, rfl⟩⟩
  · rename_i asked
    obtain ⟨-, mapped, -, -⟩ := zmqEndpointX_mapped x asked
    cases returned
    exact .inl ⟨mapped.mp rfl, rfl, _, congrArg Prod.snd asked⟩

theorem zmqUnbindX_keeps (x : isXAddr addr) {unbind : CString → Int} {rc : Int}
    (returned : zmqUnbindX unbind query resolver p addr = (resolver', some (rc, p'))) :
    Keeps p p' addr (Mapped query resolver p addr) := by
  rw [zmqUnbindX, if_pos x] at returned
  split at returned
  · cases returned
  · rename_i asked
    obtain ⟨-, mapped, -, keeps⟩ := zmqEndpointX_mapped x asked
    cases returned
    exact keeps.congr mapped
  · rename_i asked
    obtain ⟨-, mapped, -, keeps⟩ := zmqEndpointX_mapped x asked
    cases returned
    exact keeps.congr mapped

theorem zsocketUnbindX_keeps (x : isXAddr (format text)) {rc : Int}
    (returned : zsocketUnbindX below resolver p text = (resolver', some (rc, p'))) :
    Keeps p p' (format text) (Mapped below.lookup resolver p (format text)) := by
  simp only [zsocketUnbindX, x, if_true] at returned
  split at returned
  · cases returned
  · rename_i asked
    obtain ⟨-, mapped, -, keeps⟩ := zmqEndpointX_mapped x asked
    cases returned
    exact keeps.congr mapped
  · rename_i asked
    obtain ⟨-, mapped, -, keeps⟩ := zmqEndpointX_mapped x asked
    obtain ⟨endpoint, found⟩ := Option.isSome_iff_exists.mp
      ((keeps.find (format text)).mpr (.inr ⟨rfl, rfl⟩))
    rw [zmqUnbindX, if_pos x, zmqEndpointX_local x found] at returned
    cases returned
    exact keeps.congr mapped

end ZmqPractices.CzmqX
