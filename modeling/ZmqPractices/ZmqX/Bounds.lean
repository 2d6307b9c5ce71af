import ZmqPractices.Lib.Traced
import ZmqPractices.ZmqX.Coherence

/-!
The writes that `zmq_x.c` makes to its arrays.

No function checks a bound: `insert_endpoint_item` copies two strings into the next item of
`s_endpoints`, and after a receive a NUL is written at the length of the message. Here the
calls leave a trace of these writes; a message that a process receives is whatever its
sender sent, of any length. `memory_bounds_iff` says which uses of the functions keep all
writes inside the arrays, and `inBounds_of_few` gives limits on the addresses and messages
under which all do.
-/

namespace ZmqPractices.ZmqX.Bounds

open Czmq Lib

/-- A write to an item of `s_endpoints`, or of the NUL behind a received message. -/
inductive Write where
  | item (index : Nat) (addr endpoint : CString)
  | nul (index : Nat)
deriving DecidableEq

/-- The item is one of the array and its strings fit the fields with their NULs; the NUL is
in the buffer of 256 bytes. -/
def Write.InBounds : Write → Prop
  | .item index addr endpoint =>
      index < maxEndpoints ∧ addr.length < 256 ∧ endpoint.length < 32
  | .nul index => index < 256

/-! ### The calls and their writes -/

/-- `insert_endpoint_item`. -/
def insertEndpointItem (t : Endpoints) (addr endpoint : CString) : Traced Write Endpoints :=
  ⟨[.item t.items.length addr endpoint], ZmqX.insertEndpointItem t addr endpoint⟩

/-- `zmq_recv` into a buffer of 256 bytes, and the NUL at the length it returns. -/
def receive (msg : Frame) : Traced Write CString :=
  ⟨[.nul msg.length], receiveEndpoint msg⟩

/-- A turn of `ipc_server_task`, with the request it receives. -/
def ipcServerTask (t : Endpoints) (msg : Frame) : Traced Write Frame := do
  let addr ← receive msg
  let endpoint ← .ofOption (localEndpoint t addr)
  return endpoint.bytes

/-- What a process receives that does not know an address. A client asks the resolver;
`reply` is none if the send or the receive is interrupted. -/
def received (p : Process) (reply : Option Frame) : Option Frame :=
  if p.client then reply else none

/-- `zmq_endpoint_x`. -/
def zmqEndpointX (p : Process) (addr : CString) (reply : Option Frame) :
    Traced Write (Option CString × Process) :=
  match localEndpoint p.table addr with
  | some endpoint => return (some endpoint, p)
  | none =>
      match received p reply with
      | none => return (none, p)
      | some reply => do
          let endpoint ← receive reply
          let table ← insertEndpointItem p.table addr endpoint
          return (some endpoint, { p with table := table })

/-- `bind_new_endpoint`. -/
def bindNewEndpoint (zmq : Zmq) (p : Process) (addr : CString) : Traced Write (Int × Process) :=
  match zmq.bindAny with
  | .error rc => return (rc, p)
  | .ok lastEndpoint => do
      let table ← insertEndpointItem p.table addr lastEndpoint
      return (0, { p with table := table })

def zmqBindX (zmq : Zmq) (p : Process) (addr : CString) (reply : Option Frame) :
    Traced Write (Int × Process) :=
  if isXAddr addr then do
    let (endpoint, p) ← zmqEndpointX p addr reply
    match endpoint with
    | none => bindNewEndpoint zmq p addr
    | some endpoint => return (zmq.bind endpoint, p)
  else return (zmq.bind addr, p)

def zmqConnectX (zmq : Zmq) (p : Process) (addr : CString) (reply : Option Frame) :
    Traced Write (Int × Process) :=
  if isXAddr addr then do
    let (endpoint, p) ← zmqEndpointX p addr reply
    match endpoint with
    | none => return (-1, p)
    | some endpoint => return (zmq.connect endpoint, p)
  else return (zmq.connect addr, p)

/-! ### The same calls as in the model without writes -/

@[simp] theorem result_receive (msg : Frame) : (receive msg).result = receiveEndpoint msg := rfl

@[simp] theorem result_insertEndpointItem (t : Endpoints) (addr endpoint : CString) :
    (insertEndpointItem t addr endpoint).result = ZmqX.insertEndpointItem t addr endpoint := rfl

theorem result_ipcServerTask (t : Endpoints) (msg : Frame) :
    (ipcServerTask t msg).result = ZmqX.ipcServerTask t msg := by
  simp only [ipcServerTask, Traced.result_bind, result_receive, Traced.result_ofOption,
    Traced.result_pure, receiveEndpoint, ZmqX.ipcServerTask, Option.map_eq_bind]
  split <;> rfl

/-- A process that knows the answer, or is no client, returns what `zmq_endpoint_x` does
without a resolver. -/
theorem result_zmqEndpointX_local {p : Process} {addr : CString} (query : Query)
    (reply : Option Frame) (resolver : Option Endpoints)
    (here : p.client = false ∨ ∃ endpoint, localEndpoint p.table addr = some endpoint) :
    ZmqX.zmqEndpointX query resolver p addr =
      (resolver, (zmqEndpointX p addr reply).result) := by
  unfold ZmqX.zmqEndpointX zmqEndpointX
  cases known : localEndpoint p.table addr with
  | some endpoint => rfl
  | none =>
      rcases here with resolves | ⟨endpoint, found⟩
      · simp [received, resolves]
      · cases found.symm.trans known

/-- A client that asks receives what the resolver's turn sends. -/
theorem result_zmqEndpointX_client {t : Endpoints} {p : Process} {addr : CString} {reply : Frame}
    (client : p.client = true) (replied : ZmqX.ipcServerTask t addr.bytes = some reply) :
    ZmqX.zmqEndpointX .completed (some t) p addr =
      (some t, (zmqEndpointX p addr (some reply)).result) := by
  unfold ZmqX.zmqEndpointX zmqEndpointX
  cases localEndpoint p.table addr with
  | some endpoint => rfl
  | none =>
      simp only [received, client, if_true, ask, Option.bind_some, replied, Option.map_some,
        Traced.result_bind, Traced.result_pure, result_receive, result_insertEndpointItem]
      cases receiveEndpoint reply with
      | none => rfl
      | some endpoint =>
          simp only [Option.bind_some, Option.map_eq_bind, Function.comp_def]

/-- One that is interrupted receives nothing. -/
theorem result_zmqEndpointX_interrupted {query : Query} (interrupted : query ≠ .completed)
    (resolver : Option Endpoints) (p : Process) (addr : CString) :
    ∃ resolver', ZmqX.zmqEndpointX query resolver p addr =
      (resolver', (zmqEndpointX p addr none).result) := by
  obtain ⟨resolver', returned⟩ := zmqEndpointX_interrupted interrupted resolver p addr
  refine ⟨resolver', returned.trans (congrArg (resolver', ·) ?_)⟩
  unfold zmqEndpointX
  cases localEndpoint p.table addr with
  | some endpoint => rfl
  | none => simp only [received, ite_self, Traced.result_pure]

/-- So do binding and connecting, where the lookup is the same. -/
theorem result_zmqBindX {zmq : Zmq} {query : Query} {resolver resolver' : Option Endpoints}
    {p : Process} {addr : CString} {reply : Option Frame} (x : isXAddr addr)
    (same : ZmqX.zmqEndpointX query resolver p addr =
      (resolver', (zmqEndpointX p addr reply).result)) :
    ZmqX.zmqBindX zmq query resolver p addr = (resolver', (zmqBindX zmq p addr reply).result) := by
  simp only [ZmqX.zmqBindX, zmqBindX, x, if_true, same, Traced.result_bind]
  cases (zmqEndpointX p addr reply).result with
  | none => rfl
  | some out =>
      obtain ⟨endpoint, p'⟩ := out
      cases endpoint with
      | some endpoint => rfl
      | none =>
          simp only [ZmqX.bindNewEndpoint, bindNewEndpoint, Option.bind_some]
          cases zmq.bindAny with
          | error rc => rfl
          | ok lastEndpoint =>
              simp only [Traced.result_bind, Traced.result_pure, result_insertEndpointItem,
                Option.map_eq_bind, Function.comp_def]

theorem result_zmqConnectX {zmq : Zmq} {query : Query} {resolver resolver' : Option Endpoints}
    {p : Process} {addr : CString} {reply : Option Frame} (x : isXAddr addr)
    (same : ZmqX.zmqEndpointX query resolver p addr =
      (resolver', (zmqEndpointX p addr reply).result)) :
    ZmqX.zmqConnectX zmq query resolver p addr =
      (resolver', (zmqConnectX zmq p addr reply).result) := by
  simp only [ZmqX.zmqConnectX, zmqConnectX, x, if_true, same, Traced.result_bind]
  cases (zmqEndpointX p addr reply).result with
  | none => rfl
  | some out =>
      obtain ⟨endpoint, p'⟩ := out
      cases endpoint <;> rfl

/-! ### Which calls stay inside the arrays -/

/-- There is room for one more item with these strings. -/
def HasRoom (t : Endpoints) (addr endpoint : CString) : Prop :=
  t.items.length < maxEndpoints ∧ addr.length < 256 ∧ endpoint.length < 32

/-- If the process asks for the address and receives a reply, the reply fits the buffer and
there is room for the endpoint in it. -/
def LearnFits (p : Process) (addr : CString) (reply : Option Frame) : Prop :=
  localEndpoint p.table addr = none → ∀ msg, received p reply = some msg →
    msg.length < 256 ∧ HasRoom p.table addr (.ofBytes msg)

/-- If the address remains unknown and ZeroMQ binds it, there is room for the endpoint that
it has chosen. -/
def BindFits (zmq : Zmq) (p : Process) (addr : CString) (reply : Option Frame) : Prop :=
  localEndpoint p.table addr = none → received p reply = none →
    ∀ lastEndpoint, zmq.bindAny = .ok lastEndpoint → HasRoom p.table addr lastEndpoint

section

variable {p : Process} {addr : CString} {reply : Option Frame}

@[simp] theorem all_insertEndpointItem {t : Endpoints} {endpoint : CString} :
    (insertEndpointItem t addr endpoint).All Write.InBounds ↔ HasRoom t addr endpoint :=
  Traced.all_singleton _ _ _

@[simp] theorem all_receive {msg : Frame} :
    (receive msg).All Write.InBounds ↔ msg.length < 256 :=
  Traced.all_singleton _ _ _

theorem receiveEndpoint_eq_some {msg : Frame} {endpoint : CString} :
    receiveEndpoint msg = some endpoint ↔ msg.length < 256 ∧ .ofBytes msg = endpoint := by
  simp [receiveEndpoint]

theorem all_ipcServerTask {t : Endpoints} {msg : Frame} :
    (ipcServerTask t msg).All Write.InBounds ↔ msg.length < 256 := by
  simp [ipcServerTask, Traced.all_bind]

theorem all_zmqEndpointX :
    (zmqEndpointX p addr reply).All Write.InBounds ↔ LearnFits p addr reply := by
  unfold zmqEndpointX LearnFits
  cases localEndpoint p.table addr with
  | some endpoint => simp
  | none =>
      cases received p reply with
      | none => simp
      | some msg =>
          simp only [Traced.all_bind, all_receive, result_receive, receiveEndpoint_eq_some,
            all_insertEndpointItem, Traced.all_pure, true_imp_iff, Option.some.injEq, implies_true,
            and_true, forall_eq']
          exact and_congr_right fun short => by simp [short]

/-- What a call that returns came to: an endpoint that the process knew; NULL; or the
endpoint in a reply, with one more item in the table. -/
theorem zmqEndpointX_cases {endpoint : Option CString} {p' : Process}
    (done : (zmqEndpointX p addr reply).result = some (endpoint, p')) :
    (endpoint = localEndpoint p.table addr ∧ endpoint ≠ none ∧ p' = p) ∨
    (localEndpoint p.table addr = none ∧ received p reply = none ∧ endpoint = none ∧ p' = p) ∨
    (localEndpoint p.table addr = none ∧ ∃ learned, endpoint = some learned ∧
      ZmqX.insertEndpointItem p.table addr learned = some p'.table) := by
  unfold zmqEndpointX at done
  cases known : localEndpoint p.table addr with
  | some found =>
      simp only [known, Traced.result_pure, Option.some.injEq, Prod.mk.injEq] at done
      obtain ⟨rfl, rfl⟩ := done
      exact .inl ⟨rfl, Option.some_ne_none _, rfl⟩
  | none =>
      simp only [known] at done
      cases asked : received p reply with
      | none =>
          simp only [asked, Traced.result_pure, Option.some.injEq, Prod.mk.injEq] at done
          obtain ⟨rfl, rfl⟩ := done
          exact .inr (.inl ⟨rfl, rfl, rfl, rfl⟩)
      | some msg =>
          simp only [asked, Traced.result_bind] at done
          obtain ⟨learned, -, done⟩ := Option.bind_eq_some_iff.mp done
          obtain ⟨table, inserted, done⟩ := Option.bind_eq_some_iff.mp done
          simp only [Traced.result_pure, Option.some.injEq, Prod.mk.injEq] at done
          obtain ⟨rfl, rfl⟩ := done
          exact .inr (.inr ⟨rfl, learned, rfl, inserted⟩)

/-- The call returns NULL where the address is unknown and no reply is received, and it has
then changed nothing. -/
theorem zmqEndpointX_null {p' : Process}
    (done : (zmqEndpointX p addr reply).result = some (none, p')) :
    localEndpoint p.table addr = none ∧ received p reply = none ∧ p' = p := by
  rcases zmqEndpointX_cases done with ⟨-, some, -⟩ | ⟨unknown, silent, -, same⟩ | ⟨-, _, some, -⟩
  · exact absurd rfl some
  · exact ⟨unknown, silent, same⟩
  · cases some

theorem zmqEndpointX_unknown (unknown : localEndpoint p.table addr = none)
    (silent : received p reply = none) :
    (zmqEndpointX p addr reply).result = some (none, p) := by
  simp only [zmqEndpointX, unknown, silent, Traced.result_pure]

theorem all_bindNewEndpoint {zmq : Zmq} :
    (bindNewEndpoint zmq p addr).All Write.InBounds ↔
      ∀ lastEndpoint, zmq.bindAny = .ok lastEndpoint → HasRoom p.table addr lastEndpoint := by
  unfold bindNewEndpoint
  cases zmq.bindAny with
  | error rc => simp
  | ok lastEndpoint => simp

theorem all_zmqBindX {zmq : Zmq} :
    (zmqBindX zmq p addr reply).All Write.InBounds ↔
      LearnFits p addr reply ∧ BindFits zmq p addr reply := by
  unfold zmqBindX
  split
  · rw [Traced.all_bind, all_zmqEndpointX]
    refine and_congr_right fun _ => ⟨fun rest unknown silent => ?_, ?_⟩
    · exact all_bindNewEndpoint.mp (rest _ (zmqEndpointX_unknown unknown silent))
    · rintro binds ⟨endpoint, p'⟩ done
      cases endpoint with
      | some endpoint => exact Traced.all_pure _ _
      | none =>
          obtain ⟨unknown, silent, rfl⟩ := zmqEndpointX_null done
          exact all_bindNewEndpoint.mpr (binds unknown silent)
  · rename_i other
    have known : localEndpoint p.table addr ≠ none := fun unknown =>
      other (localEndpoint_eq_none.mp unknown).1
    simp [LearnFits, BindFits, known]

theorem all_zmqConnectX {zmq : Zmq} :
    (zmqConnectX zmq p addr reply).All Write.InBounds ↔ LearnFits p addr reply := by
  unfold zmqConnectX
  split
  · rw [Traced.all_bind, all_zmqEndpointX]
    refine and_iff_left_of_imp fun _ => ?_
    rintro ⟨endpoint, p'⟩ -
    cases endpoint <;> exact Traced.all_pure _ _
  · rename_i other
    have known : localEndpoint p.table addr ≠ none := fun unknown =>
      other (localEndpoint_eq_none.mp unknown).1
    simp [LearnFits, known]

end

/-! ### Any sequence of uses -/

/-- A process that uses the functions, until a call does not return; and the writes that it
has made, newest call first. -/
structure Memory where
  process : Process
  running : Bool
  written : List Write
deriving DecidableEq

/-- The calls of a program, with what ZeroMQ answers and what the resolver's client
receives; and in the resolver's process a turn of `ipc_server_task`. -/
inductive Use where
  | bind (zmq : Zmq) (addr : CString) (reply : Option Frame)
  | connect (zmq : Zmq) (addr : CString) (reply : Option Frame)
  | endpoint (addr : CString) (reply : Option Frame)
  | serve (request : Frame)

/-- The writes of a use, and the process after it. -/
def Use.run (p : Process) : Use → Traced Write Process
  | .bind zmq addr reply => Prod.snd <$> zmqBindX zmq p addr reply
  | .connect zmq addr reply => Prod.snd <$> zmqConnectX zmq p addr reply
  | .endpoint addr reply => Prod.snd <$> zmqEndpointX p addr reply
  | .serve request => (fun _ => p) <$> ipcServerTask p.table request

/-- The resolver's thread runs in a process that is no client. -/
def Use.Enabled (p : Process) : Use → Prop
  | .serve _ => p.client = false
  | _ => True

instance (p : Process) : (use : Use) → Decidable (use.Enabled p)
  | .serve _ => inferInstanceAs (Decidable (_ = _))
  | .bind .. | .connect .. | .endpoint .. => .isTrue trivial

def useStep (s : Memory) (use : Use) : Option Memory :=
  if s.running ∧ use.Enabled s.process then
    let out := use.run s.process
    some
      { process := out.result.getD s.process
        running := out.result.isSome
        written := out.writes ++ s.written }
  else none

/-- A process with an empty table, the resolver's or a client. -/
def memory (client : Bool) : System Memory Use where
  start := { process := ⟨.empty, client⟩, running := true, written := [] }
  step := useStep

/-- Every write so far was inside its array. -/
def InBounds (s : Memory) : Prop := ∀ w ∈ s.written, w.InBounds

/-- The use stays inside the arrays: every message it receives is shorter than 256 bytes,
and there is room for the item that it adds. -/
def Fits (s : Memory) : Use → Prop
  | .bind zmq addr reply => LearnFits s.process addr reply ∧ BindFits zmq s.process addr reply
  | .connect _ addr reply => LearnFits s.process addr reply
  | .endpoint addr reply => LearnFits s.process addr reply
  | .serve request => request.length < 256

theorem all_run {s : Memory} {use : Use} :
    (use.run s.process).All Write.InBounds ↔ Fits s use := by
  cases use with
  | bind zmq addr reply => exact Traced.all_map.trans all_zmqBindX
  | connect zmq addr reply => exact Traced.all_map.trans all_zmqConnectX
  | endpoint addr reply => exact Traced.all_map.trans all_zmqEndpointX
  | serve request => exact Traced.all_map.trans all_ipcServerTask

/-- What a use leaves: its writes before the others, and the process it returns. -/
theorem useStep_eq_some {s s' : Memory} {use : Use} (taken : useStep s use = some s') :
    use.Enabled s.process ∧ s'.written = (use.run s.process).writes ++ s.written ∧
      s'.process = (use.run s.process).result.getD s.process := by
  obtain ⟨⟨-, enabled⟩, ⟨⟩⟩ := Option.ite_none_right_eq_some.mp taken
  exact ⟨enabled, rfl, rfl⟩

/-- **The bounds of the arrays.** In every run all writes stay inside the arrays exactly if
every message a process receives is shorter than 256 bytes, and every item it adds is one
of the first hundred, for an address of less than 256 and an endpoint of less than 32 bytes. -/
theorem memory_bounds_iff (client : Bool) {past : List (Memory × Use)} {s : Memory}
    (run : Run (memory client) past s) : Always InBounds past s ↔ EachStep Fits past := by
  refine run.exact (fun _ => True) InBounds Fits ⟨trivial, ?_⟩ fun s use s' _ before taken => ?_
  · exact fun _ mem => absurd mem List.not_mem_nil
  · obtain ⟨-, written, -⟩ := useStep_eq_some taken
    have split : InBounds s' ↔ (use.run s.process).All Write.InBounds ∧ InBounds s := by
      rw [InBounds, written]
      exact List.forall_mem_append
    rw [split, all_run]
    exact ⟨and_iff_left before, fun _ => trivial⟩

instance : (w : Write) → Decidable w.InBounds
  | .item .. => inferInstanceAs (Decidable (_ ∧ _))
  | .nul _ => inferInstanceAs (Decidable (_ < _))

instance (s : Memory) : Decidable (InBounds s) :=
  inferInstanceAs (Decidable (∀ w ∈ s.written, w.InBounds))

/-- `tcp://127.0.0.1:49152`. -/
def localTcp : CString where
  bytes := [0x74, 0x63, 0x70, 0x3a, 0x2f, 0x2f, 0x31, 0x32, 0x37, 0x2e, 0x30, 0x2e, 0x30, 0x2e,
    0x31, 0x3a, 0x34, 0x39, 0x31, 0x35, 0x32]
  nulFree := by decide

/-- A client learns an endpoint from the resolver. -/
theorem memory_bounds_iff_learns : ∃ past s, Run (memory true) past s ∧
    Always InBounds past s ∧ EachStep Fits past ∧
      s.written = [.nul 21, .item 0 ipcA localTcp] := by
  have ran : ((memory true).record [] (memory true).start
      [.endpoint ipcA (some localTcp.bytes)]).map
      (fun out => (decide (InBounds out.2 ∧ ∀ step ∈ out.1, InBounds step.1), out.2.written)) =
        some (true, [.nul 21, .item 0 ipcA localTcp]) := by
    decide
  obtain ⟨⟨past, s⟩, done, seen⟩ := Option.map_eq_some_iff.mp ran
  simp only [Prod.mk.injEq, decide_eq_true_eq] at seen
  have run := Run.start.record done
  exact ⟨past, s, run, seen.1, (memory_bounds_iff true run).mp seen.1, seen.2⟩

/-- A request has its NUL written at its length, whatever the turn comes to. -/
theorem serve_written {s : Memory} (running : s.running = true)
    (resolver : s.process.client = false) (request : Frame) :
    ∃ s', (memory false).step s (.serve request) = some s' ∧
      s'.written = .nul request.length :: s.written := by
  refine ⟨_, if_pos ⟨running, resolver⟩, ?_⟩
  have writes : (ipcServerTask s.process.table request).writes = [.nul request.length] :=
    Traced.writes_bind fun _ => Traced.writes_bind fun _ => rfl
  simp only [Use.run, Traced.writes_map, writes, List.singleton_append]

/-- A bind of an unknown address in the resolver's process writes the next item. -/
theorem bind_written {s : Memory} (running : s.running = true)
    (resolver : s.process.client = false) {zmq : Zmq} {addr endpoint : CString}
    (unknown : localEndpoint s.process.table addr = none) (chosen : zmq.bindAny = .ok endpoint)
    (reply : Option Frame) :
    ∃ s', (memory false).step s (.bind zmq addr reply) = some s' ∧
      s'.written = .item s.process.table.items.length addr endpoint :: s.written := by
  refine ⟨_, if_pos ⟨running, trivial⟩, ?_⟩
  have silent : received s.process reply = none := by simp [received, resolver]
  have writes : (zmqBindX zmq s.process addr reply).writes =
      [.item s.process.table.items.length addr endpoint] := by
    simp only [zmqBindX, (localEndpoint_eq_none.mp unknown).1, if_true, zmqEndpointX, unknown,
      silent, pure_bind, bindNewEndpoint, chosen]
    exact Traced.writes_bind fun _ => rfl
  simp only [Use.run, Traced.writes_map, writes, List.singleton_append]

/-- `ipc://` and 250 bytes more. -/
def longAddr : CString where
  bytes := ipcHead ++ List.replicate 250 0x61
  nulFree mem := by
    rcases List.mem_append.mp mem with head | rest
    · exact absurd head (by decide)
    · exact absurd (List.eq_of_mem_replicate rest) (by decide)

/-- A request of 256 bytes has its NUL written behind the buffer; and an address of 256
bytes that a program binds is copied, with its NUL, past its field. -/
theorem bounds_exceeded :
    (∃ past s, Run (memory false) past s ∧ s.written = [.nul 256] ∧ ¬ Always InBounds past s) ∧
    (∃ past s, Run (memory false) past s ∧ s.written = [.item 0 longAddr localTcp] ∧
      ¬ Always InBounds past s) := by
  constructor
  · obtain ⟨s, taken, written⟩ := serve_written (s := (memory false).start) rfl rfl
      (List.replicate 256 0x61)
    rw [List.length_replicate] at written
    refine ⟨_, s, Run.start.next taken, written, fun always => ?_⟩
    exact absurd (always.1 (.nul 256) (written ▸ List.mem_singleton_self _)) (by decide)
  · have unknown : localEndpoint (memory false).start.process.table longAddr = none :=
      localEndpoint_eq_none.mpr ⟨rfl, rfl⟩
    let zmq : Zmq := ⟨fun _ => 0, fun _ => 0, .ok localTcp⟩
    have chosen : zmq.bindAny = .ok localTcp := rfl
    obtain ⟨s, taken, written⟩ := bind_written (s := (memory false).start) rfl rfl unknown chosen
      none
    refine ⟨_, s, Run.start.next taken, written, fun always => ?_⟩
    have fits : longAddr.length < 256 :=
      (always.1 (.item 0 longAddr localTcp) (written ▸ List.mem_singleton_self _)).2.1
    have length : longAddr.length = ipcHead.length + 250 :=
      List.length_append.trans (congrArg _ List.length_replicate)
    exact absurd (length ▸ fits) (by decide)

/-! ### Few addresses and short messages -/

/-- The table is the same, or has one more item, for an address it did not know. -/
def Grows (t t' : Endpoints) (addr : CString) : Prop :=
  t' = t ∨ localEndpoint t addr = none ∧
    ∃ endpoint, ZmqX.insertEndpointItem t addr endpoint = some t'

section

variable {p p' : Process} {addr : CString} {reply : Option Frame}

theorem zmqEndpointX_table {endpoint : Option CString}
    (done : (zmqEndpointX p addr reply).result = some (endpoint, p')) :
    Grows p.table p'.table addr := by
  rcases zmqEndpointX_cases done with ⟨-, -, rfl⟩ | ⟨-, -, -, rfl⟩ | ⟨unknown, learned, -, inserted⟩
  · exact .inl rfl
  · exact .inl rfl
  · exact .inr ⟨unknown, learned, inserted⟩

theorem bindNewEndpoint_table {zmq : Zmq} {rc : Int} (unknown : localEndpoint p.table addr = none)
    (done : (bindNewEndpoint zmq p addr).result = some (rc, p')) :
    Grows p.table p'.table addr := by
  unfold bindNewEndpoint at done
  split at done
  · simp only [Traced.result_pure, Option.some.injEq, Prod.mk.injEq] at done
    exact .inl (done.2 ▸ rfl)
  · rw [Traced.result_bind] at done
    obtain ⟨table, inserted, done⟩ := Option.bind_eq_some_iff.mp done
    simp only [Traced.result_pure, Option.some.injEq, Prod.mk.injEq] at done
    obtain ⟨-, rfl⟩ := done
    exact .inr ⟨unknown, _, inserted⟩

theorem zmqBindX_table {zmq : Zmq} {rc : Int}
    (done : (zmqBindX zmq p addr reply).result = some (rc, p')) :
    Grows p.table p'.table addr := by
  unfold zmqBindX at done
  split at done
  · rw [Traced.result_bind] at done
    obtain ⟨⟨endpoint, q⟩, resolved, rest⟩ := Option.bind_eq_some_iff.mp done
    cases endpoint with
    | none =>
        obtain ⟨unknown, -, rfl⟩ := zmqEndpointX_null resolved
        exact bindNewEndpoint_table unknown rest
    | some endpoint =>
        simp only [Traced.result_pure, Option.some.injEq, Prod.mk.injEq] at rest
        exact rest.2 ▸ zmqEndpointX_table resolved
  · simp only [Traced.result_pure, Option.some.injEq, Prod.mk.injEq] at done
    exact .inl (done.2 ▸ rfl)

theorem zmqConnectX_table {zmq : Zmq} {rc : Int}
    (done : (zmqConnectX zmq p addr reply).result = some (rc, p')) :
    Grows p.table p'.table addr := by
  unfold zmqConnectX at done
  split at done
  · rw [Traced.result_bind] at done
    obtain ⟨⟨endpoint, q⟩, resolved, rest⟩ := Option.bind_eq_some_iff.mp done
    have grows := zmqEndpointX_table resolved
    cases endpoint <;>
      simp only [Traced.result_pure, Option.some.injEq, Prod.mk.injEq] at rest <;>
      exact rest.2 ▸ grows
  · simp only [Traced.result_pure, Option.some.injEq, Prod.mk.injEq] at done
    exact .inl (done.2 ▸ rfl)

end

/-- The address that a use is for. -/
def Use.addr? : Use → Option CString
  | .bind _ addr _ | .connect _ addr _ | .endpoint addr _ => some addr
  | .serve _ => none

theorem run_table {p p' : Process} {use : Use} (done : (use.run p).result = some p') :
    p'.table = p.table ∨ ∃ addr, use.addr? = some addr ∧ Grows p.table p'.table addr := by
  cases use with
  | bind zmq addr reply =>
      obtain ⟨⟨rc, q⟩, returned, rfl⟩ := Option.map_eq_some_iff.mp (Traced.result_map _ _ ▸ done)
      exact .inr ⟨addr, rfl, zmqBindX_table returned⟩
  | connect zmq addr reply =>
      obtain ⟨⟨rc, q⟩, returned, rfl⟩ := Option.map_eq_some_iff.mp (Traced.result_map _ _ ▸ done)
      exact .inr ⟨addr, rfl, zmqConnectX_table returned⟩
  | endpoint addr reply =>
      obtain ⟨⟨endpoint, q⟩, returned, rfl⟩ :=
        Option.map_eq_some_iff.mp (Traced.result_map _ _ ▸ done)
      exact .inr ⟨addr, rfl, zmqEndpointX_table returned⟩
  | serve request =>
      obtain ⟨endpoint, -, rfl⟩ := Option.map_eq_some_iff.mp (Traced.result_map _ _ ▸ done)
      exact .inl rfl

/-- A use for one of these addresses, or one that needs no resolving; the messages and the
endpoints that come in are short. -/
def Modest (addresses : List CString) (_ : Memory) : Use → Prop
  | .bind zmq addr reply =>
      (isXAddr addr → addr ∈ addresses) ∧ (∀ msg, reply = some msg → msg.length < 32) ∧
        ∀ lastEndpoint, zmq.bindAny = .ok lastEndpoint → lastEndpoint.length < 32
  | .connect _ addr reply | .endpoint addr reply =>
      (isXAddr addr → addr ∈ addresses) ∧ ∀ msg, reply = some msg → msg.length < 32
  | .serve request => request.length < 256

/-- A sound table with items for these addresses only. -/
structure Holds (addresses : List CString) (t : Endpoints) : Prop where
  sound : t.Sound
  listed : ∀ item ∈ t.items, item.addr ∈ addresses

section

variable {addresses : List CString} {t t' : Endpoints} {addr : CString}

/-- The addresses of the table and one it does not know are different ones of the list. -/
theorem Holds.hasRoom (holds : Holds addresses t) (few : addresses.length ≤ maxEndpoints)
    (short : ∀ addr ∈ addresses, addr.length < 256) (unknown : localEndpoint t addr = none)
    (mem : isXAddr addr → addr ∈ addresses) {endpoint : CString} (fits : endpoint.length < 32) :
    HasRoom t addr endpoint := by
  obtain ⟨x, absent⟩ := localEndpoint_eq_none.mp unknown
  have fresh : addr ∉ t.items.map AddrEndpoint.addr := fun known => by
    obtain ⟨item, listed, same⟩ := List.mem_map.mp known
    exact find_eq_none.mp absent item listed same
  have distinct : (addr :: t.items.map AddrEndpoint.addr).Nodup :=
    List.nodup_cons.mpr ⟨fresh, holds.sound.distinct⟩
  have within : addr :: t.items.map AddrEndpoint.addr ⊆ addresses := by
    refine List.cons_subset.mpr ⟨mem x, fun other known => ?_⟩
    obtain ⟨item, listed, rfl⟩ := List.mem_map.mp known
    exact holds.listed item listed
  have count := (List.subperm_of_subset distinct within).length_le
  rw [List.length_cons, List.length_map] at count
  exact ⟨count.trans few, short addr (mem x), fits⟩

theorem Holds.grows (holds : Holds addresses t) (grows : Grows t t' addr)
    (mem : isXAddr addr → addr ∈ addresses) : Holds addresses t' := by
  rcases grows with rfl | ⟨unknown, endpoint, inserted⟩
  · exact holds
  · obtain ⟨x, absent⟩ := localEndpoint_eq_none.mp unknown
    obtain ⟨item, rfl, -, items⟩ := items_insert inserted
    refine ⟨(holds.sound.insert x absent inserted).2, fun other listed => ?_⟩
    rw [items] at listed
    rcases List.mem_append.mp listed with old | new
    · exact holds.listed other old
    · exact List.mem_singleton.mp new ▸ mem x

theorem Modest.named {s : Memory} {use : Use} (modest : Modest addresses s use)
    (for_addr : use.addr? = some addr) : isXAddr addr → addr ∈ addresses := by
  cases use with
  | bind zmq other reply => exact Option.some.inj for_addr ▸ modest.1
  | connect zmq other reply => exact Option.some.inj for_addr ▸ modest.1
  | endpoint other reply => exact Option.some.inj for_addr ▸ modest.1
  | serve request => cases for_addr

/-- A short reply fits the buffer, and the string in it the field. -/
theorem Holds.learnFits {p : Process} (holds : Holds addresses p.table)
    (few : addresses.length ≤ maxEndpoints) (short : ∀ addr ∈ addresses, addr.length < 256)
    {reply : Option Frame} (mem : isXAddr addr → addr ∈ addresses)
    (replies : ∀ msg, reply = some msg → msg.length < 32) : LearnFits p addr reply := by
  intro unknown msg asked
  have length : msg.length < 32 := by
    unfold received at asked
    split at asked
    · exact replies msg asked
    · cases asked
  have cut : (CString.ofBytes msg).length ≤ msg.length := (List.takeWhile_prefix _).length_le
  exact ⟨by omega, holds.hasRoom few short unknown mem (by omega)⟩

theorem Modest.fits {s : Memory} {use : Use} (modest : Modest addresses s use)
    (holds : Holds addresses s.process.table) (few : addresses.length ≤ maxEndpoints)
    (short : ∀ addr ∈ addresses, addr.length < 256) : Fits s use := by
  cases use with
  | bind zmq addr reply =>
      obtain ⟨mem, replies, endpoints⟩ := modest
      exact ⟨holds.learnFits few short mem replies, fun unknown _ lastEndpoint bound =>
        holds.hasRoom few short unknown mem (endpoints lastEndpoint bound)⟩
  | connect zmq addr reply => exact holds.learnFits few short modest.1 modest.2
  | endpoint addr reply => exact holds.learnFits few short modest.1 modest.2
  | serve request => exact modest

end

/-- So programs that name at most a hundred addresses, none of 256 bytes or more, stay
inside the arrays while the messages and endpoints that come in are as short as those of
TCP on the local host. -/
theorem inBounds_of_few {addresses : List CString} (few : addresses.length ≤ maxEndpoints)
    (short : ∀ addr ∈ addresses, addr.length < 256) {client : Bool}
    {past : List (Memory × Use)} {s : Memory} (run : Run (memory client) past s)
    (modest : EachStep (Modest addresses) past) : Always InBounds past s := by
  have holds : Always (fun s => Holds addresses s.process.table) past s := by
    refine run.guarded_invariant _ (Modest addresses) ?_ (fun s use s' holds modest taken => ?_)
      modest
    · exact ⟨⟨List.nodup_nil, fun _ mem => absurd mem List.not_mem_nil⟩,
        fun _ mem => absurd mem List.not_mem_nil⟩
    · obtain ⟨-, -, process⟩ := useStep_eq_some taken
      rw [process]
      cases returned : (use.run s.process).result with
      | none => exact holds
      | some p' =>
          rcases run_table returned with same | ⟨addr, for_addr, grows⟩
          · exact same ▸ holds
          · exact holds.grows grows (Modest.named modest for_addr)
  refine (memory_bounds_iff client run).mpr fun step mem => ?_
  exact (modest step mem).fits (holds.2 step mem) few short

end ZmqPractices.ZmqX.Bounds
