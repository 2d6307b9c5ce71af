import ZmqPractices.Czmq.Format
import ZmqPractices.Czmq.List
import ZmqPractices.Lib.Printed

/-!
The broker peering prototype (`prototype.cpp`): a broker that balances its own
clients over its own workers and hands requests to its peers when they have
capacity and it has none.

A turn of the main loop reads at most one reply, at most one state message and then
as many requests as there is capacity for; each part is a function of its own, so
that other parties can act between them. `none` is a call the C++ code cannot
survive: reading through a NULL pointer, past the end of a frame or of `argv`.
-/

namespace ZmqPractices.Peering

open Czmq

/-- `WORKER_READY`: signals that worker is ready. -/
def workerReady : Frame := [1]

/-- A message the broker sends, on one of its ROUTER sockets. -/
inductive Output where
  | localfe (msg : Msg)
  | localbe (msg : Msg)
  | cloudfe (msg : Msg)
  | cloudbe (msg : Msg)
deriving DecidableEq, Repr

/-- The variables of `main`; `self` and `peers` are its arguments. -/
structure Broker where
  self : Frame
  peers : List Frame
  localCapacity : Int
  cloudCapacity : Int
  previousCapacity : Int
  availableWorkers : ZList Frame
deriving DecidableEq, Repr

/-- The state in which `main` enters its loop. -/
def Broker.start (self : Frame) (peers : List Frame) : Broker where
  self := self
  peers := peers
  localCapacity := 0
  cloudCapacity := 0
  previousCapacity := 0
  availableWorkers := .new

/-- Route a reply to the cloud if its first frame is the name of a peer, and to a
client if it is not. Without a peer the first frame is not looked at. -/
def routeReply : List Frame → Msg → Option Output
  | [], msg => some (.localfe msg)
  | _ :: _, [] => none
  | peer :: peers, frame :: msg =>
      if zframeStreq frame peer then some (.cloudfe (frame :: msg))
      else routeReply peers (frame :: msg)

/-- A message from a local worker, which is available from now on. READY goes no
further: `memcmp` compares the first byte of the first frame. -/
def localbeReply (b : Broker) (msg : Msg) : Option (Broker × Option Output) :=
  match zmsgUnwrap msg with
  | (none, _) => none
  | (some identity, msg) =>
      let b := { b with
        availableWorkers := b.availableWorkers.append identity
        localCapacity := b.localCapacity + 1 }
      match msg with
      | [] => none
      | [] :: _ => none
      | (byte :: _) :: _ =>
          if workerReady = [byte] then some (b, none)
          else (routeReply b.peers msg).map fun out => (b, some out)

/-- A reply from a peer broker: remove the identity frame of the peer. -/
def cloudbeReply (b : Broker) (msg : Msg) : Option (Broker × Option Output) :=
  match zmsgUnwrap msg with
  | (none, _) => none
  | (some _, msg) => (routeReply b.peers msg).map fun out => (b, some out)

/-- A client request: to a local worker if there is one available, and otherwise to
the peer at `randof (argc - 2)`. -/
def routeRequest (b : Broker) (rand : Nat) (msg : Msg) : Option (Broker × Option Output) :=
  if b.localCapacity ≠ 0 then
    match b.availableWorkers.pop with
    | (none, _) => none
    | (some worker, workers) =>
        some ({ b with
          availableWorkers := workers
          localCapacity := b.localCapacity - 1 }, some (.localbe (zmsgWrap msg worker)))
  else
    match b.peers[rand]? with
    | none => none
    | some peer => some (b, some (.cloudbe (zmsgPush msg peer)))

/-! ### Clients -/

/-- `sprintf (task_id, "%s-%04x", self, rand)`. -/
def taskId (self : Frame) (rand : Nat) : Frame := self ++ 0x2d :: Lib.padded 4 16 rand

/-- The size of `task_id`. -/
def taskIdSize : Nat := 32

/-- What goes on the wire for a task id. `none` is what C leaves undefined: `sprintf` writes
past the end of `task_id`, or `zstr_send` reads an argument that it was not passed. -/
def sendTask (build : Build) (task : Frame) : Option Frame :=
  if task.length < taskIdSize then zstrSend build task else none

/-- Where a client stands: between two requests, waiting for the reply to a task, gone
after its poll ran out, stopped by the failed assertion, or behind a send that C leaves
undefined. -/
inductive Phase where
  | idle
  | waiting (task : Frame)
  | lost (task : Frame)
  | aborted
  | undefined
deriving DecidableEq, Repr

/-- A `client_task`. `sent` records the tasks it has sent, for the statements only;
`monitor` is what it has pushed to the monitor of the replies it received. -/
structure Client where
  phase : Phase
  sent : List Frame
  monitor : List Frame
deriving DecidableEq, Repr

def Client.start : Client where
  phase := .idle
  sent := []
  monitor := []

/-- Send a request with a random hex ID. -/
def Client.send (c : Client) (task : Frame) : Client :=
  { c with phase := .waiting task, sent := c.sent ++ [task] }

/-- A send that C leaves undefined: what the program does from here on is open. -/
def Client.undefine (c : Client) : Client := { c with phase := .undefined }

/-- `zstr_recv` and the assertion that the worker answered with the task id. -/
def Client.receive (c : Client) (task frame : Frame) : Client :=
  let reply := zframeStrdup frame
  if streq reply task then { c with phase := .idle, monitor := c.monitor ++ [reply] }
  else { c with phase := .aborted }

/-! ### REQ sockets -/

/-- What a REQ socket puts on the wire. -/
def reqSend (msg : Msg) : Msg := [] :: msg

/-- What a REQ socket hands to its owner; a message without the empty frame is
dropped. -/
def reqRecv : Msg → Option Msg
  | [] :: msg => some msg
  | _ => none

/-! ### What the routing decides -/

/-- A reply goes to the cloud frontend when its first frame names a peer, and to the
local frontend otherwise. -/
theorem routeReply_cons (peers : List Frame) (frame : Frame) (msg : Msg) :
    routeReply peers (frame :: msg) =
      some (if frame ∈ peers then .cloudfe (frame :: msg) else .localfe (frame :: msg)) := by
  induction peers with
  | nil => rfl
  | cons peer peers ih =>
      by_cases same : frame = peer
      · simp [routeReply, same]
      · simp [routeReply, same, ih]

/-- What routing one message leaves of a broker's variables, whichever socket it came
from: `localCapacity` goes on counting the available workers. -/
structure Routed (b b' : Broker) : Prop where
  self : b'.self = b.self
  peers : b'.peers = b.peers
  cloudCapacity : b'.cloudCapacity = b.cloudCapacity
  counted : b.localCapacity = b.availableWorkers.size →
    b'.localCapacity = b'.availableWorkers.size

section Routed

variable {b b' : Broker} {msg : Msg} {out : Option Output}

theorem routed_append (b : Broker) (worker : Frame) :
    Routed b { b with
      availableWorkers := b.availableWorkers.append worker
      localCapacity := b.localCapacity + 1 } where
  self := rfl
  peers := rfl
  cloudCapacity := rfl
  counted count := by
    rw [count, ZList.size, ZList.size, ZList.items_append, List.length_append]
    rfl

theorem localbeReply_routed (done : localbeReply b msg = some (b', out)) : Routed b b' := by
  simp only [localbeReply] at done
  split at done
  · cases done
  split at done
  · cases done
  · cases done
  split at done
  · obtain rfl := (Prod.mk.inj (Option.some.inj done)).1
    exact routed_append b _
  · obtain ⟨_, _, same⟩ := Option.map_eq_some_iff.mp done
    obtain rfl := (Prod.mk.inj same).1
    exact routed_append b _

theorem cloudbeReply_routed (done : cloudbeReply b msg = some (b', out)) : Routed b b' := by
  simp only [cloudbeReply] at done
  split at done
  · cases done
  · obtain ⟨_, _, same⟩ := Option.map_eq_some_iff.mp done
    obtain rfl := (Prod.mk.inj same).1
    exact ⟨rfl, rfl, rfl, id⟩

/-- A request goes to the worker that has been available longest, or under the name of a
peer when there is no local capacity. -/
theorem routeRequest_cases {rand : Nat} (done : routeRequest b rand msg = some (b', out)) :
    (∃ worker workers, b.availableWorkers.items = worker :: workers ∧
      b' = { b with availableWorkers := ⟨workers, none⟩, localCapacity := b.localCapacity - 1 } ∧
      out = some (.localbe (worker :: [] :: msg))) ∨
    (b.localCapacity = 0 ∧ b' = b ∧ ∃ peer ∈ b.peers, out = some (.cloudbe (peer :: msg))) := by
  simp only [routeRequest] at done
  split at done
  · cases available : b.availableWorkers.items with
    | nil => simp [ZList.pop, available] at done
    | cons worker workers =>
        simp only [ZList.pop, available, Option.some.injEq, Prod.mk.injEq] at done
        obtain ⟨rfl, rfl⟩ := done
        exact .inl ⟨worker, workers, rfl, rfl, rfl⟩
  · rename_i empty
    split at done
    · cases done
    · rename_i peer found
      obtain ⟨rfl, rfl⟩ := Prod.mk.inj (Option.some.inj done)
      exact .inr ⟨not_not.mp empty, rfl, peer, List.mem_of_getElem? found, rfl⟩

theorem routeRequest_routed {rand : Nat} (done : routeRequest b rand msg = some (b', out)) :
    Routed b b' := by
  rcases routeRequest_cases done with ⟨worker, workers, available, rfl, _⟩ | ⟨_, rfl, _⟩
  · refine ⟨rfl, rfl, rfl, fun count => ?_⟩
    rw [ZList.size, available, List.length_cons] at count
    show b.localCapacity - 1 = (workers.length : Int)
    omega
  · exact ⟨rfl, rfl, rfl, id⟩

/-- With a worker available, or a peer to choose, every request is routed. -/
theorem routeRequest_defined (rand : Nat) (msg : Msg)
    (counted : b.localCapacity = b.availableWorkers.size)
    (room : b.localCapacity ≠ 0 ∨ rand < b.peers.length) :
    ∃ b' out, routeRequest b rand msg = some (b', out) := by
  by_cases capacity : b.localCapacity = 0
  · have in_range := room.resolve_left (not_not.mpr capacity)
    exact ⟨b, _, by
      rw [routeRequest, if_neg (not_not.mpr capacity), List.getElem?_eq_getElem in_range]⟩
  · cases available : b.availableWorkers.items with
    | nil => exact absurd (by rw [counted, ZList.size, available]; rfl) capacity
    | cons worker workers =>
        exact ⟨_, _, by rw [routeRequest, if_pos capacity, ZList.pop, available]⟩

end Routed

/-- The bytes of a task id behind the name are a dash and hexadecimal digits. -/
theorem mem_taskId {self : Frame} {rand : Nat} {byte : UInt8} (mem : byte ∈ taskId self rand) :
    byte ∈ self ∨ byte = 0x2d ∨ Lib.IsHexDigit byte := by
  rcases List.mem_append.mp mem with named | counted
  · exact .inl named
  · rcases List.mem_cons.mp counted with dash | digit
    · exact .inr (.inl dash)
    · rcases Lib.mem_padded digit with rfl | printed
      · exact .inr (.inr (by decide))
      · exact .inr (.inr (Lib.isHexDigit_of_mem_printed printed))

/-- A task id has no NUL among its bytes when the broker's name has none. -/
theorem nulFree_taskId {self : Frame} (nulFree : NulFree self) (rand : Nat) :
    NulFree (taskId self rand) := by
  intro mem
  rcases mem_taskId mem with named | dash | digit
  · exact nulFree named
  · cases dash
  · exact absurd digit (by decide)

/-- A task id has a percent sign where the broker's name has one, and only there. -/
theorem percent_mem_taskId {self : Frame} {rand : Nat} :
    (0x25 : UInt8) ∈ taskId self rand ↔ (0x25 : UInt8) ∈ self := by
  refine ⟨fun mem => ?_, List.mem_append_left _⟩
  rcases mem_taskId mem with named | dash | digit
  · exact named
  · cases dash
  · exact absurd digit (by decide)

/-- The task id fits its buffer and goes on the wire as it is. -/
def Sendable (build : Build) (self : Frame) (rand : Nat) : Prop :=
  self.length + 1 + (Lib.padded 4 16 rand).length < taskIdSize ∧
    (build = .posix → (0x25 : UInt8) ∉ self)

instance (build : Build) (self : Frame) (rand : Nat) : Decidable (Sendable build self rand) :=
  inferInstanceAs (Decidable (_ ∧ _))

theorem sendTask_eq_self_iff {build : Build} {self : Frame} {rand : Nat} :
    sendTask build (taskId self rand) = some (taskId self rand) ↔ Sendable build self rand := by
  have length : (taskId self rand).length = self.length + 1 + (Lib.padded 4 16 rand).length := by
    rw [taskId, List.length_append, List.length_cons]
    omega
  unfold sendTask Sendable
  rw [length]
  split
  · rename_i short
    rw [zstrSend_eq_self_iff, percent_mem_taskId]
    exact (and_iff_right short).symm
  · rename_i long
    exact iff_of_false (by simp) fun sendable => long sendable.1

/-- A name of at most 26 bytes leaves room for a number of four digits. -/
theorem sendable_iff {build : Build} {self : Frame} {rand : Nat} (small : rand < 0x10000) :
    Sendable build self rand ↔ self.length ≤ 26 ∧ (build = .posix → (0x25 : UInt8) ∉ self) := by
  have four : (Lib.padded 4 16 rand).length = 4 := by
    rw [Lib.length_padded]
    exact max_eq_left ((Lib.length_printed_le_iff (by decide) (by decide)).mpr small)
  rw [Sendable, four, taskIdSize]
  exact and_congr_left' (by omega)

end ZmqPractices.Peering
