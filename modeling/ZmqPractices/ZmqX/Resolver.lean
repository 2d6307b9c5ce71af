import ZmqPractices.ZmqX.Endpoints

/-!
Which queries the resolver of `zmq_x.c` survives.

`zmq_endpoint_x` answers NULL for an address that is not bound yet, and `zmq_bind_x` and
`zmq_connect_x` are written for that answer. In the resolver's own process the server
asserts that the answer is never NULL, so the first query for an unbound address ends it,
and the process that asked waits for ever.
-/

namespace ZmqPractices.ZmqX

open Czmq

/-- An address that the resolver has an answer for: it fits the buffer with its NUL, and it
is bound or needs no resolving. -/
def Answerable (resolver : Endpoints) (addr : CString) : Prop :=
  addr.length < 256 ∧ (isXAddr addr → ∃ item ∈ resolver.items, item.addr = addr)

/-- The call leaves the resolver running as it was, and returns a result. -/
def Returns (resolver : Endpoints) (outcome : Option Endpoints × Option (Int × Process)) : Prop :=
  outcome.1 = some resolver ∧ ∃ rc p, outcome.2 = some (rc, p)

/-- The resolver answers a query for the address, and a process that is its client and has
room in its table can bind and connect to it, whatever ZeroMQ answers. A bind whose query is
interrupted takes an endpoint that ZeroMQ chooses, which has to fit its field. -/
structure Survives (resolver : Endpoints) (addr : CString) : Prop where
  answers : ∃ reply, ipcServerTask resolver addr.bytes = some reply
  binds : ∀ (zmq : Zmq) (query : Query) (cache : Endpoints), cache.items.length < maxEndpoints →
    (query ≠ .completed → ∀ endpoint, zmq.bindAny = .ok endpoint → endpoint.length < 32) →
      Returns resolver (zmqBindX zmq query (some resolver) ⟨cache, true⟩ addr)
  connects : ∀ (zmq : Zmq) (query : Query) (cache : Endpoints),
    cache.items.length < maxEndpoints →
      Returns resolver (zmqConnectX zmq query (some resolver) ⟨cache, true⟩ addr)

variable {resolver cache : Endpoints} {addr endpoint : CString}

theorem ipcServerTask_bytes (resolver : Endpoints) (addr : CString) :
    ipcServerTask resolver addr.bytes =
      if addr.length < 256 then (localEndpoint resolver addr).map CString.bytes else none := by
  rw [ipcServerTask, ofBytes_bytes]
  rfl

theorem isSome_localEndpoint :
    (localEndpoint resolver addr).isSome ↔
      (isXAddr addr → ∃ item ∈ resolver.items, item.addr = addr) := by
  unfold localEndpoint
  split
  · rename_i x
    simp only [x, true_imp_iff, Option.isSome_iff_ne_none, ne_eq, find_eq_none, not_forall, not_not,
      exists_prop]
  · rename_i not_x
    simp [not_x]

/-- The server's turn ends well exactly for an address it has an answer for. -/
theorem answers_iff :
    (∃ reply, ipcServerTask resolver addr.bytes = some reply) ↔ Answerable resolver addr := by
  rw [ipcServerTask_bytes, Answerable, ← isSome_localEndpoint]
  split
  · rename_i fits
    cases localEndpoint resolver addr <;> simp [fits]
  · rename_i fits
    simp [fits]

theorem ipcServerTask_found (x : isXAddr addr) (found : resolver.find addr = some endpoint) :
    ipcServerTask resolver addr.bytes = some endpoint.bytes := by
  rw [ipcServerTask_bytes, if_pos (length_of_find found).1, localEndpoint, if_pos x, found]
  rfl

theorem receiveEndpoint_found (found : resolver.find addr = some endpoint) :
    receiveEndpoint endpoint.bytes = some endpoint := by
  have short : endpoint.bytes.length < 256 := (length_of_find found).2.trans (by decide)
  rw [receiveEndpoint, if_pos short, ofBytes_bytes]

/-- Asking for a bound address brings its endpoint, if nothing interrupts it. -/
theorem ask_found (query : Query) (x : isXAddr addr)
    (found : resolver.find addr = some endpoint) :
    ask query (some resolver) addr =
      (some resolver, some (if query = .completed then some endpoint else none)) := by
  cases query <;>
    simp [ask, ipcServerTask_found x found, receiveEndpoint_found found]

/-- A call whose query is interrupted returns what the process knows itself. -/
theorem zmqEndpointX_interrupted {query : Query} (interrupted : query ≠ .completed)
    (resolver : Option Endpoints) (p : Process) (addr : CString) :
    ∃ resolver', zmqEndpointX query resolver p addr =
      (resolver', some (localEndpoint p.table addr, p)) := by
  have null : ∃ resolver', ask query resolver addr = (resolver', some none) := by
    cases query with
    | completed => exact absurd rfl interrupted
    | notSent => exact ⟨_, rfl⟩
    | notReceived => exact ⟨_, rfl⟩
  obtain ⟨resolver', null⟩ := null
  unfold zmqEndpointX
  cases localEndpoint p.table addr with
  | some endpoint => exact ⟨resolver, rfl⟩
  | none =>
      cases p.client with
      | false => exact ⟨resolver, rfl⟩
      | true => exact ⟨resolver', by simp only [null, if_true]⟩

/-- There is room for an item that fits. -/
theorem insertEndpointItem_fits {t : Endpoints} (room : t.items.length < maxEndpoints)
    (short : addr.length < 256) (fits : endpoint.length < 32) :
    ∃ table, insertEndpointItem t addr endpoint = some table :=
  ⟨_, dif_pos ⟨room, short, fits⟩⟩

/-- A client with room in its table learns the endpoint of a bound address; NULL is for an
interruption, and changes nothing. -/
theorem zmqEndpointX_found (query : Query) (x : isXAddr addr)
    (found : resolver.find addr = some endpoint) (room : cache.items.length < maxEndpoints) :
    ∃ known p, zmqEndpointX query (some resolver) ⟨cache, true⟩ addr =
        (some resolver, some (known, p)) ∧
      (known = none → query ≠ .completed ∧ p = ⟨cache, true⟩) := by
  cases here : localEndpoint cache addr with
  | some known => exact ⟨known, ⟨cache, true⟩, by simp [zmqEndpointX, here]⟩
  | none =>
      rcases eq_or_ne query .completed with rfl | interrupted
      · obtain ⟨short, fits⟩ := length_of_find found
        obtain ⟨table, inserted⟩ := insertEndpointItem_fits room short fits
        refine ⟨endpoint, ⟨table, true⟩, ?_, by simp⟩
        simp [zmqEndpointX, here, ask_found .completed x found, inserted]
      · refine ⟨none, ⟨cache, true⟩, ?_, fun _ => ⟨interrupted, rfl⟩⟩
        simp [zmqEndpointX, here, ask_found query x found, interrupted]

theorem Answerable.find (answerable : Answerable resolver addr) (x : isXAddr addr) :
    ∃ endpoint, resolver.find addr = some endpoint := by
  apply Option.ne_none_iff_exists'.mp
  intro none
  obtain ⟨item, mem, same⟩ := answerable.2 x
  exact find_eq_none.mp none item mem same

theorem Answerable.survives (answerable : Answerable resolver addr) : Survives resolver addr := by
  refine ⟨answers_iff.mpr answerable, ?_, ?_⟩
  · intro zmq query cache room chosen
    by_cases x : isXAddr addr
    · obtain ⟨endpoint, found⟩ := answerable.find x
      obtain ⟨known, p, done, null⟩ := zmqEndpointX_found query x found room
      cases known with
      | some known => simp [Returns, zmqBindX, x, done]
      | none =>
          obtain ⟨interrupted, rfl⟩ := null rfl
          simp only [Returns, zmqBindX, x, if_true, done, bindNewEndpoint, true_and]
          cases any : zmq.bindAny with
          | error rc => exact ⟨rc, _, rfl⟩
          | ok last =>
              obtain ⟨table, inserted⟩ := insertEndpointItem_fits (t := cache) room answerable.1
                (chosen interrupted last any)
              exact ⟨0, ⟨table, true⟩, by simp [inserted]⟩
    · simp [Returns, zmqBindX, x]
  · intro zmq query cache room
    by_cases x : isXAddr addr
    · obtain ⟨endpoint, found⟩ := answerable.find x
      obtain ⟨known, p, done, -⟩ := zmqEndpointX_found query x found room
      cases known <;> simp [Returns, zmqConnectX, x, done]
    · simp [Returns, zmqConnectX, x]

/-- **The resolver survives exactly the queries it has an answer for.** For every state of
its table and every address: the server's turn passes its assertion and sends a reply,
and binding and connecting to the address in a process that is its client leave it
running and return, interrupted or not, if and only if the address fits the buffer and is
bound or is none of `ipc://` and `inproc://`. -/
theorem survives_iff (resolver : Endpoints) (addr : CString) :
    Survives resolver addr ↔ Answerable resolver addr :=
  ⟨fun survives => answers_iff.mp survives.answers, Answerable.survives⟩

/-- `ipc://a`. -/
def ipcA : CString := ⟨ipcHead ++ [0x61], by decide⟩

/-- Connecting to an address that nobody has bound ends the resolver, and the call does
not return. -/
theorem unbound_ends_resolver :
    ipcServerTask .empty ipcA.bytes = none ∧
      (∀ zmq, zmqConnectX zmq .completed (some .empty) ⟨.empty, true⟩ ipcA = (none, none)) ∧
      (∀ zmq, zmqBindX zmq .completed (some .empty) ⟨.empty, true⟩ ipcA = (none, none)) ∧
      ¬ Survives .empty ipcA := by
  refine ⟨by decide, fun _ => rfl, fun _ => rfl, ?_⟩
  intro survives
  obtain ⟨item, mem, _⟩ := (answers_iff.mp survives.answers).2 (by decide)
  cases mem

end ZmqPractices.ZmqX
