import ZmqPractices.Czmq.Message
import ZmqPractices.Lib.Table

/-!
Named endpoints over TCP (`zmq_x.c`): `ipc://` and `inproc://` addresses stand for
endpoints that ZeroMQ chooses, and a table in each process says for which.

The process that starts first binds the resolver's port and answers the others, whose
tables are caches. `zmq_endpoint_x` looks an address up: here, or where the process is a
client of the resolver there. `none` in the place of a result is a call that does not
return: a failed assertion, a write past a buffer, or a wait for a resolver that is gone. A
wait that is interrupted ends with NULL, as for an address that is not bound.
-/

namespace ZmqPractices.ZmqX

open Czmq

/-! ### Strings -/

/-- A C string: bytes without a NUL. -/
structure CString where
  bytes : Frame
  nulFree : NulFree bytes
deriving DecidableEq

/-- `strlen`. -/
def CString.length (s : CString) : Nat := s.bytes.length

/-- The string in a buffer that holds these bytes and a terminating NUL. -/
def CString.ofBytes (bytes : Frame) : CString where
  bytes := zframeStrdup bytes
  nulFree mem := by simpa using List.mem_takeWhile_imp mem

/-- A string that is sent and received is itself. -/
@[simp] theorem ofBytes_bytes (s : CString) : CString.ofBytes s.bytes = s := by
  obtain ⟨bytes, nulFree⟩ := s
  simp only [CString.ofBytes, zframeStrdup_of_nulFree nulFree]

/-- `ipc://`. -/
def ipcHead : Frame := [0x69, 0x70, 0x63, 0x3a, 0x2f, 0x2f]

/-- `inproc://`. -/
def inprocHead : Frame := [0x69, 0x6e, 0x70, 0x72, 0x6f, 0x63, 0x3a, 0x2f, 0x2f]

/-- `is_x_addr`: `strstr` finds a head at the very beginning. -/
def isXAddr (addr : CString) : Bool :=
  startsWith addr.bytes ipcHead || startsWith addr.bytes inprocHead

/-! ### The table -/

/-- `MAX_ENDPOINTS`. -/
def maxEndpoints : Nat := 100

/-- `struct addr_endpoint_t`, with strings that fit its fields. -/
@[ext] structure AddrEndpoint where
  addr : CString
  endpoint : CString
  addr_fits : addr.length < 256
  endpoint_fits : endpoint.length < 32
deriving DecidableEq

/-- `s_endpoints` up to `s_endpoints_size`. -/
structure Endpoints where
  items : List AddrEndpoint
  room : items.length ≤ maxEndpoints
deriving DecidableEq

def Endpoints.empty : Endpoints := ⟨[], Nat.zero_le _⟩

/-- The first endpoint that the loop of `zmq_endpoint_x` finds. -/
def Endpoints.find (t : Endpoints) (addr : CString) : Option CString :=
  (Lib.Table.find AddrEndpoint.addr addr t.items).map AddrEndpoint.endpoint

/-- `insert_endpoint_item`: a new last item, without a check for the room and for the
lengths that the array and its fields have. -/
def insertEndpointItem (t : Endpoints) (addr endpoint : CString) : Option Endpoints :=
  if fits : t.items.length < maxEndpoints ∧ addr.length < 256 ∧ endpoint.length < 32 then
    some ⟨t.items ++ [⟨addr, endpoint, fits.2.1, fits.2.2⟩], by
      rw [List.length_append]
      exact fits.1⟩
  else none

/-! ### Resolving -/

/-- A process: its table, and whether `s_ipc_client` is set. -/
structure Process where
  table : Endpoints
  client : Bool
deriving DecidableEq

/-- `zmq_endpoint_x` as far as the process knows the answer itself; NULL if it does not. -/
def localEndpoint (t : Endpoints) (addr : CString) : Option CString :=
  if isXAddr addr then t.find addr else some addr

/-- A turn of `ipc_server_task`: receive an address, terminate it, look it up, assert that
there is an endpoint and send it. The resolver's process is no client itself. -/
def ipcServerTask (t : Endpoints) (msg : Frame) : Option Frame :=
  if msg.length < 256 then (localEndpoint t (.ofBytes msg)).map CString.bytes else none

/-- What the client has in its buffer after the resolver's reply. -/
def receiveEndpoint (reply : Frame) : Option CString :=
  if reply.length < 256 then some (.ofBytes reply) else none

/-- What becomes of a query: the send and the receive return, or one of them is
interrupted. -/
inductive Query where
  | completed
  | notSent
  | notReceived
deriving DecidableEq, Repr

/-- Send a request to the resolver, which handles it, and receive the reply; NULL if the
call is interrupted. A resolver that cannot answer is gone, and nobody answers for it. -/
def ask (query : Query) (resolver : Option Endpoints) (addr : CString) :
    Option Endpoints × Option (Option CString) :=
  let answered := resolver.bind fun t =>
    (ipcServerTask t addr.bytes).map fun reply => (t, reply)
  match query with
  | .notSent => (resolver, some none)
  | .notReceived => (answered.map Prod.fst, some none)
  | .completed => (answered.map Prod.fst, (answered.bind (receiveEndpoint ·.2)).map some)

/-- `zmq_endpoint_x`: what becomes of the resolver, and, where the call returns, the
endpoint or NULL and the process afterwards. -/
def zmqEndpointX (query : Query) (resolver : Option Endpoints) (p : Process) (addr : CString) :
    Option Endpoints × Option (Option CString × Process) :=
  match localEndpoint p.table addr with
  | some endpoint => (resolver, some (some endpoint, p))
  | none =>
      if p.client then
        match ask query resolver addr with
        | (resolver, none) => (resolver, none)
        | (resolver, some none) => (resolver, some (none, p))
        | (resolver, some (some endpoint)) =>
            (resolver, (insertEndpointItem p.table addr endpoint).map fun table =>
              (some endpoint, { p with table := table }))
      else (resolver, some (none, p))

/-! ### Binding and connecting -/

/-- What ZeroMQ answers to the calls made of it: the results of `zmq_bind` and
`zmq_connect`, and the endpoint it chooses for `tcp://127.0.0.1:*`. -/
structure Zmq where
  bind : CString → Int
  connect : CString → Int
  bindAny : Except Int CString

/-- `bind_new_endpoint`. -/
def bindNewEndpoint (zmq : Zmq) (p : Process) (addr : CString) : Option (Int × Process) :=
  match zmq.bindAny with
  | .error rc => some (rc, p)
  | .ok lastEndpoint =>
      (insertEndpointItem p.table addr lastEndpoint).map fun table => (0, { p with table := table })

def zmqBindX (zmq : Zmq) (query : Query) (resolver : Option Endpoints) (p : Process)
    (addr : CString) : Option Endpoints × Option (Int × Process) :=
  if isXAddr addr then
    match zmqEndpointX query resolver p addr with
    | (resolver, none) => (resolver, none)
    | (resolver, some (none, p)) => (resolver, bindNewEndpoint zmq p addr)
    | (resolver, some (some endpoint, p)) => (resolver, some (zmq.bind endpoint, p))
  else (resolver, some (zmq.bind addr, p))

def zmqConnectX (zmq : Zmq) (query : Query) (resolver : Option Endpoints) (p : Process)
    (addr : CString) : Option Endpoints × Option (Int × Process) :=
  if isXAddr addr then
    match zmqEndpointX query resolver p addr with
    | (resolver, none) => (resolver, none)
    | (resolver, some (none, p)) => (resolver, some (-1, p))
    | (resolver, some (some endpoint, p)) => (resolver, some (zmq.connect endpoint, p))
  else (resolver, some (zmq.connect addr, p))

/-- `zmqUnbind` is what ZeroMQ answers to `zmq_unbind`. -/
def zmqUnbindX (zmqUnbind : CString → Int) (query : Query) (resolver : Option Endpoints)
    (p : Process) (addr : CString) : Option Endpoints × Option (Int × Process) :=
  if isXAddr addr then
    match zmqEndpointX query resolver p addr with
    | (resolver, none) => (resolver, none)
    | (resolver, some (none, p)) => (resolver, some (-1, p))
    | (resolver, some (some endpoint, p)) => (resolver, some (zmqUnbind endpoint, p))
  else (resolver, some (zmqUnbind addr, p))

/-! ### Looking up -/

theorem find_eq_some {t : Endpoints} {addr endpoint : CString}
    (found : t.find addr = some endpoint) :
    ∃ item ∈ t.items, item.addr = addr ∧ item.endpoint = endpoint := by
  obtain ⟨item, first, rfl⟩ := Option.map_eq_some_iff.mp found
  exact ⟨item, Lib.Table.mem_of_find first, Lib.Table.key_of_find first, rfl⟩

theorem find_eq_none {t : Endpoints} {addr : CString} :
    t.find addr = none ↔ ∀ item ∈ t.items, item.addr ≠ addr := by
  rw [Endpoints.find, Option.map_eq_none_iff, Lib.Table.find_eq_none]

/-- An address the table does not answer for is one it has no item for. -/
theorem localEndpoint_eq_none {t : Endpoints} {addr : CString} :
    localEndpoint t addr = none ↔ isXAddr addr ∧ t.find addr = none := by
  unfold localEndpoint
  split
  · rename_i x
    simp [x]
  · rename_i not_x
    simp [not_x]

/-- Where the addresses are distinct, an item is found under its own. -/
theorem find_of_mem {t : Endpoints} (distinct : (t.items.map AddrEndpoint.addr).Nodup)
    {item : AddrEndpoint} (mem : item ∈ t.items) : t.find item.addr = some item.endpoint := by
  rw [Endpoints.find, Lib.Table.find_of_mem distinct mem]
  rfl

/-- A table's address and endpoint fit the fields of any other. -/
theorem length_of_find {t : Endpoints} {addr endpoint : CString}
    (found : t.find addr = some endpoint) : addr.length < 256 ∧ endpoint.length < 32 := by
  obtain ⟨item, _, rfl, rfl⟩ := find_eq_some found
  exact ⟨item.addr_fits, item.endpoint_fits⟩

/-- The item that an insertion adds at the end. -/
theorem items_insert {t t' : Endpoints} {addr endpoint : CString}
    (done : insertEndpointItem t addr endpoint = some t') :
    ∃ item, item.addr = addr ∧ item.endpoint = endpoint ∧ t'.items = t.items ++ [item] := by
  unfold insertEndpointItem at done
  split at done
  · rename_i fits
    exact ⟨⟨addr, endpoint, fits.2.1, fits.2.2⟩, rfl, rfl, Option.some.inj done ▸ rfl⟩
  · cases done

end ZmqPractices.ZmqX
