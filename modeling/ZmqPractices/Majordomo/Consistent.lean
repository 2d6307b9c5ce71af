import ZmqPractices.Majordomo.System

/-!
The two levels of waiting lists agree.

`Consistent b` says that the workers waiting at the broker are, as a multiset, the
workers waiting at its services, that each of these is in the table with a pointer
to that service, and that services have different names. It is stated on the lists
of the services alone (`queues`), and each operation of the broker keeps it.

The section on the purge shows that, where `s_worker_delete` leaves no occurrence
behind, the purge ends and removes the same workers from every list (`Dropped`); the
one on dispatch computes the loop of `s_service_dispatch`.
-/

namespace ZmqPractices.Majordomo

open Czmq Lib

/-- The waiting lists of the services, by name. -/
def Broker.queues (b : Broker) : List (Frame × List Addr) :=
  b.services.map fun s => (s.name, s.waiting)

/-- The waiting lists and the tables of a broker fit together. -/
structure Consistent (b : Broker) : Prop where
  fresh : ∀ w ∈ b.workers, w.addr < b.allocated
  names : (b.queues.map Prod.fst).Nodup
  attached : ∀ p ∈ b.queues, ∀ a ∈ p.2, b.serviceOf a = some p.1
  known : ∀ a name, b.serviceOf a = some name → name ∈ b.queues.map Prod.fst
  agree : b.waiting.Perm (b.queues.flatMap Prod.snd)

section

variable {h : Helpers} {clock : Nat → Nat} {b b' : Broker} {worker : Addr} {name : Frame}

/-! ### What the operations write -/

theorem serviceOf_eq_some : b.serviceOf worker = some name ↔
    ∃ w, b.deref worker = some w ∧ w.service = some name :=
  Option.bind_eq_some_iff

/-- A service that is found is listed under its name. -/
theorem mem_queues_of_service {s : Service} (found : b.service name = some s) :
    (name, s.waiting) ∈ b.queues := by
  have : s.name = name := Table.key_of_find found
  exact this ▸ List.mem_map_of_mem (Table.mem_of_find found)

theorem queues_setService {write : Service → Service} (f : List Addr → List Addr)
    (kept : ∀ s, (write s).name = s.name) (written : ∀ s, (write s).waiting = f s.waiting) :
    (b.setService name write).queues =
      Table.update Prod.fst name (fun p => (p.1, f p.2)) b.queues := by
  simp only [Broker.queues, Broker.setService, Table.update, List.map_map]
  apply List.map_congr_left
  intro s _
  by_cases here : s.name = name
  · simp [here, kept, written]
  · simp [here]

theorem queues_setService_same {write : Service → Service}
    (kept : ∀ s, (write s).name = s.name) (same : ∀ s, (write s).waiting = s.waiting) :
    (b.setService name write).queues = b.queues := by
  rw [queues_setService id kept same]
  exact Table.update_eq_self fun _ _ _ => rfl

theorem service_setService_self {write : Service → Service} {s : Service}
    (found : b.service name = some s) (kept : ∀ s, (write s).name = s.name) :
    (b.setService name write).service name = some (write s) :=
  (Table.find_update_self kept).trans (congrArg (Option.map write) found)

theorem service_setService_ne {write : Service → Service} {other : Frame}
    (different : other ≠ name) (kept : ∀ s, (write s).name = s.name) :
    (b.setService name write).service other = b.service other :=
  Table.find_update_ne kept different

theorem serviceOf_setWorker_same {write : Worker → Worker} {a : Addr}
    (kept : ∀ w, (write w).addr = w.addr) (same : ∀ w, (write w).service = w.service) :
    (b.setWorker worker write).serviceOf a = b.serviceOf a := by
  unfold Broker.serviceOf Broker.deref Broker.setWorker
  by_cases here : a = worker
  · rw [here, Table.find_update_self kept, Option.bind_map]
    exact congrArg _ (funext same)
  · rw [Table.find_update_ne kept here]

theorem fresh_setWorker {write : Worker → Worker} (kept : ∀ w, (write w).addr = w.addr)
    (fresh : ∀ w ∈ b.workers, w.addr < b.allocated) :
    ∀ w ∈ (b.setWorker worker write).workers, w.addr < b.allocated := by
  intro w mem
  rcases Table.mem_update.mp mem with ⟨old, _⟩ | ⟨v, old, _, rfl⟩
  · exact fresh w old
  · rw [kept]
    exact fresh v old

/-! ### The operations keep the lists together -/

/-- An operation that leaves the lists and the service pointers alone. -/
theorem Consistent.frame (consistent : Consistent b)
    (fresh : ∀ w ∈ b'.workers, w.addr < b'.allocated)
    (serviceOf : ∀ a, b'.serviceOf a = b.serviceOf a) (queues : b'.queues = b.queues)
    (waiting : b'.waiting = b.waiting) : Consistent b' where
  fresh := fresh
  names := queues ▸ consistent.names
  attached p mem a waits := (serviceOf a).trans (consistent.attached p (queues ▸ mem) a waits)
  known a name pointed := queues ▸ consistent.known a name ((serviceOf a).symm.trans pointed)
  agree := by
    rw [waiting, queues]
    exact consistent.agree

theorem Consistent.read (consistent : Consistent b) : Consistent b.read :=
  consistent.frame consistent.fresh (fun _ => rfl) rfl rfl

/-- The next address to be allocated is not in use. -/
theorem Consistent.serviceOf_allocated (consistent : Consistent b) :
    b.serviceOf b.allocated = none := by
  have missing : b.deref b.allocated = none :=
    Table.find_eq_none.mpr fun w mem => (consistent.fresh w mem).ne
  rw [Broker.serviceOf, missing, Option.bind_none]

/-- A new worker points to no service. -/
theorem Consistent.serviceOf_insertWorker (consistent : Consistent b) (identity : Frame)
    (a : Addr) : (b.insertWorker identity).serviceOf a = b.serviceOf a := by
  by_cases new : b.allocated = a
  · subst new
    rw [consistent.serviceOf_allocated]
    simp [Broker.serviceOf, Broker.deref, Table.find, Broker.insertWorker]
  · simp [Broker.serviceOf, Broker.deref, Table.find, Broker.insertWorker, new]

theorem Consistent.insertWorker (consistent : Consistent b) (identity : Frame) :
    Consistent (b.insertWorker identity) := by
  refine consistent.frame ?_ (consistent.serviceOf_insertWorker identity) rfl rfl
  intro w mem
  rcases List.mem_cons.mp mem with rfl | old
  · exact Nat.lt_succ_self _
  · exact Nat.lt_succ_of_lt (consistent.fresh w old)

theorem serviceOf_requireService (b : Broker) (name : Frame) (a : Addr) :
    (b.requireService name).serviceOf a = b.serviceOf a := by
  rw [Broker.serviceOf, Broker.deref, workers_requireService]
  rfl

theorem mem_names_requireService (b : Broker) (name : Frame) :
    name ∈ (b.requireService name).queues.map Prod.fst := by
  unfold Broker.requireService
  split
  · rename_i found
    obtain ⟨s, found⟩ := Option.isSome_iff_exists.mp found
    exact List.mem_map.mpr ⟨_, mem_queues_of_service found, rfl⟩
  · simp [Broker.queues]

/-- `s_service_require` gives a service that exists. -/
theorem service_requireService (b : Broker) (name : Frame) :
    ∃ s, (b.requireService name).service name = some s := by
  have listed := mem_names_requireService b name
  rw [Broker.queues, List.map_map] at listed
  obtain ⟨s, mem, rfl⟩ := List.mem_map.mp listed
  exact Table.find_isSome_of_mem mem

theorem Consistent.requireService (consistent : Consistent b) (name : Frame) :
    Consistent (b.requireService name) := by
  unfold Broker.requireService
  split
  · exact consistent
  · rename_i missing
    have new : ∀ s ∈ b.services, s.name ≠ name :=
      Table.find_eq_none.mp (Option.not_isSome_iff_eq_none.mp missing)
    have queues : Broker.queues { b with services := b.services ++ [⟨name, [], [], 0⟩] } =
        b.queues ++ [(name, [])] := by simp [Broker.queues]
    refine ⟨consistent.fresh, ?_, ?_, ?_, ?_⟩
    · rw [queues, List.map_append, List.nodup_append]
      refine ⟨consistent.names, List.nodup_singleton _, ?_⟩
      intro old mem new' single same
      obtain rfl : new' = name := by simpa using single
      obtain ⟨p, listed, rfl⟩ := List.mem_map.mp mem
      obtain ⟨s, service, rfl⟩ := List.mem_map.mp listed
      exact new s service same
    · intro p mem a waits
      rw [queues] at mem
      rcases List.mem_append.mp mem with old | single
      · exact consistent.attached p old a waits
      · obtain rfl : p = (name, []) := by simpa using single
        cases waits
    · intro a other pointed
      rw [queues, List.map_append]
      exact List.mem_append_left _ (consistent.known a other pointed)
    · rw [queues, List.flatMap_append]
      simpa using consistent.agree

/-- Queueing a request changes no waiting list. -/
theorem Consistent.queueRequest (consistent : Consistent b) (name : Frame) (msg : Option Msg) :
    Consistent (queueRequest b name msg) := by
  cases msg with
  | none => exact consistent
  | some msg =>
      exact consistent.frame consistent.fresh (fun _ => rfl)
        (queues_setService_same (fun _ => rfl) fun _ => rfl) rfl

theorem deref_attach_self (b : Broker) (worker : Addr) (name : Frame) :
    (b.attach worker name).deref worker =
      (b.deref worker).map ({ · with service := some name }) :=
  Table.find_update_self fun _ => rfl

/-- Pointing a worker that waits nowhere to a known service. -/
theorem Consistent.attach (consistent : Consistent b) (idle : b.serviceOf worker = none)
    (name_mem : name ∈ b.queues.map Prod.fst) : Consistent (b.attach worker name) := by
  have queues : (b.attach worker name).queues = b.queues :=
    queues_setService_same (fun _ => rfl) fun _ => rfl
  have others : ∀ a, a ≠ worker → (b.attach worker name).serviceOf a = b.serviceOf a := by
    intro a other
    exact congrArg (Option.bind · Worker.service) (Table.find_update_ne (fun _ => rfl) other)
  constructor
  · exact fresh_setWorker (fun _ => rfl) consistent.fresh
  · rw [queues]
    exact consistent.names
  · intro p mem a waits
    have pointed := consistent.attached p (queues ▸ mem) a waits
    have other : a ≠ worker := by
      rintro rfl
      rw [idle] at pointed
      cases pointed
    rw [others a other, pointed]
  · intro a service pointed
    rw [queues]
    by_cases here : a = worker
    · obtain ⟨w, found, service_eq⟩ := serviceOf_eq_some.mp (here ▸ pointed)
      obtain ⟨v, _, rfl⟩ :=
        Option.map_eq_some_iff.mp ((deref_attach_self b worker name).symm.trans found)
      exact Option.some.inj service_eq ▸ name_mem
    · exact consistent.known a service ((others a here).symm.trans pointed)
  · rw [queues]
    exact consistent.agree

/-- `s_worker_waiting` on a worker with a service. -/
theorem Consistent.enqueue {rm : List Addr → Addr → List Addr} (helpers : h.Queues rm)
    (consistent : Consistent b) (pointed : b.serviceOf worker = some name) (now : Nat) :
    Consistent (h.sWorkerWaiting b worker now) := by
  have queues : (h.sWorkerWaiting b worker now).queues =
      Table.update Prod.fst name (fun p => (p.1, p.2 ++ [worker])) b.queues := by
    rw [Broker.queues, helpers.waiting_services, pointed]
    simp only [Broker.queues, Table.update, List.map_map]
    apply List.map_congr_left
    intro s _
    by_cases here : s.name = name
    · simp [here]
    · have : ¬ name = s.name := fun eq => here eq.symm
      simp [here, this]
  have serviceOf : ∀ a, (h.sWorkerWaiting b worker now).serviceOf a = b.serviceOf a := by
    intro a
    have same : (b.setWorker worker ({ · with expiry := now + heartbeatExpiry })).serviceOf a =
        b.serviceOf a := serviceOf_setWorker_same (fun _ => rfl) fun _ => rfl
    rwa [Broker.serviceOf, Broker.deref, ← helpers.waiting_workers] at same
  have names : (h.sWorkerWaiting b worker now).queues.map Prod.fst = b.queues.map Prod.fst := by
    rw [queues]
    exact Table.keys_update fun _ => rfl
  obtain ⟨p, listed, rfl⟩ := List.mem_map.mp (consistent.known worker name pointed)
  constructor
  · rw [helpers.waiting_workers, helpers.waiting_allocated]
    exact fresh_setWorker (fun _ => rfl) consistent.fresh
  · rw [names]
    exact consistent.names
  · intro q mem a waits
    rw [serviceOf]
    rcases Table.mem_update.mp (queues ▸ mem) with ⟨old, _⟩ | ⟨r, old, here, rfl⟩
    · exact consistent.attached q old a waits
    · rcases List.mem_append.mp waits with waits | new
      · exact consistent.attached r old a waits
      · rw [List.mem_singleton.mp new, pointed, here]
  · intro a service pointed'
    rw [names]
    exact consistent.known a service ((serviceOf a).symm.trans pointed')
  · have exchanged : ((Table.update Prod.fst p.1 (fun p => (p.1, p.2 ++ [worker]))
          b.queues).flatMap Prod.snd ++ p.2).Perm
        (b.queues.flatMap Prod.snd ++ (p.2 ++ [worker])) :=
      Table.flatMap_update_perm Prod.snd consistent.names listed
    rw [helpers.waiting_waiting, queues]
    have joined : (b.waiting ++ [worker] ++ p.2).Perm
        (b.queues.flatMap Prod.snd ++ (p.2 ++ [worker])) := by
      rw [List.append_assoc]
      exact consistent.agree.append List.perm_append_comm
    exact (List.perm_append_right_iff _).mp (joined.trans exchanged.symm)

/-! ### Deleting workers -/

/-- `rm` takes every occurrence of a worker out of the list, and does so on each of
its sublists. -/
def RemovesAll (rm : List Addr → Addr → List Addr) (waiting : List Addr) : Prop :=
  ∀ rest, rest.Sublist waiting → ∀ a, rm rest a = rest.filter (· ≠ a)

/-- The workers `gone` are off the table and off every waiting list, and nothing
else has changed but counts of workers and the clock. -/
structure Dropped (gone : List Addr) (b b' : Broker) : Prop where
  workers : b'.workers = b.workers.filter (·.addr ∉ gone)
  services : ∃ workerNum : Service → Nat, b'.services = b.services.map fun s =>
    { s with waiting := s.waiting.filter (· ∉ gone), workerNum := workerNum s }
  waiting : b'.waiting = b.waiting.filter (· ∉ gone)
  allocated : b'.allocated = b.allocated

theorem Dropped.queues {gone : List Addr} (dropped : Dropped gone b b') :
    b'.queues = b.queues.map fun p => (p.1, p.2.filter (· ∉ gone)) := by
  obtain ⟨workerNum, services⟩ := dropped.services
  rw [Broker.queues, Broker.queues, services, List.map_map, List.map_map]
  rfl

theorem Dropped.deref {gone : List Addr} (dropped : Dropped gone b b') (a : Addr) :
    b'.deref a = if a ∉ gone then b.deref a else none := by
  rw [Broker.deref, dropped.workers]
  exact Table.find_filter (· ∉ gone)

theorem Dropped.serviceOf {gone : List Addr} (dropped : Dropped gone b b') (a : Addr) :
    b'.serviceOf a = if a ∉ gone then b.serviceOf a else none := by
  rw [Broker.serviceOf, dropped.deref]
  split <;> rfl

theorem Dropped.refl : Dropped [] b b where
  workers := by simp
  services := ⟨Service.workerNum, by simp⟩
  waiting := by simp
  allocated := rfl

/-- Reading the clock drops nobody. -/
theorem Dropped.read : Dropped [] b b.read := ⟨Dropped.refl.workers, Dropped.refl.services,
  Dropped.refl.waiting, rfl⟩

theorem Dropped.trans {gone gone' : List Addr} {b'' : Broker} (dropped : Dropped gone b b')
    (later : Dropped gone' b' b'') : Dropped (gone' ++ gone) b b'' where
  workers := by
    rw [later.workers, dropped.workers, List.filter_filter]
    simp [not_or]
  services := by
    obtain ⟨workerNum, services⟩ := dropped.services
    obtain ⟨workerNum', services'⟩ := later.services
    refine ⟨fun s => workerNum' { s with
      waiting := s.waiting.filter (· ∉ gone), workerNum := workerNum s }, ?_⟩
    rw [services', services, List.map_map]
    apply List.map_congr_left
    intro s _
    simp [List.filter_filter, not_or]
  waiting := by
    rw [later.waiting, dropped.waiting, List.filter_filter]
    simp [not_or]
  allocated := later.allocated.trans dropped.allocated

/-- Deleting workers everywhere keeps the lists together. -/
theorem Consistent.dropped {gone : List Addr} (consistent : Consistent b)
    (dropped : Dropped gone b b') : Consistent b' := by
  have names : b'.queues.map Prod.fst = b.queues.map Prod.fst := by
    rw [dropped.queues, List.map_map]
    rfl
  constructor
  · intro w mem
    rw [dropped.workers] at mem
    rw [dropped.allocated]
    exact consistent.fresh w (List.mem_of_mem_filter mem)
  · rw [names]
    exact consistent.names
  · intro p mem a waits
    rw [dropped.queues] at mem
    obtain ⟨q, old, rfl⟩ := List.mem_map.mp mem
    obtain ⟨waits, kept⟩ := List.mem_filter.mp waits
    rw [dropped.serviceOf, if_pos (by simpa using kept)]
    exact consistent.attached q old a waits
  · intro a name pointed
    rw [names]
    rw [dropped.serviceOf] at pointed
    split at pointed
    · exact consistent.known a name pointed
    · cases pointed
  · rw [dropped.waiting, dropped.queues, List.flatMap_map, ← List.filter_flatMap]
    exact consistent.agree.filter _

/-- `rm` takes every occurrence of a worker out of each of the waiting lists. -/
structure Clean (rm : List Addr → Addr → List Addr) (b : Broker) : Prop where
  broker : RemovesAll rm b.waiting
  queues : ∀ p ∈ b.queues, RemovesAll rm p.2

theorem RemovesAll.sublist {rm : List Addr → Addr → List Addr} {waiting rest : List Addr}
    (removes : RemovesAll rm waiting) (sub : rest.Sublist waiting) : RemovesAll rm rest :=
  fun _ sub' => removes _ (sub'.trans sub)

theorem removesAll_removeAll (waiting : List Addr) : RemovesAll Helpers.removeAll waiting :=
  fun _ _ _ => rfl

theorem removesAll_erase {waiting : List Addr} (nodup : waiting.Nodup) :
    RemovesAll List.erase waiting := by
  intro rest sub a
  rw [(nodup.sublist sub).erase_eq_filter]
  apply List.filter_congr
  intro x _
  by_cases same : x = a <;> simp [same]

section Purge

variable {rm : List Addr → Addr → List Addr}

theorem Clean.dropped {gone : List Addr} (clean : Clean rm b) (dropped : Dropped gone b b') :
    Clean rm b' where
  broker := dropped.waiting ▸ clean.broker.sublist List.filter_sublist
  queues p mem := by
    rw [dropped.queues] at mem
    obtain ⟨q, old, rfl⟩ := List.mem_map.mp mem
    exact (clean.queues q old).sublist List.filter_sublist

/-- `s_worker_delete` drops its worker. -/
theorem dropped_delete (helpers : h.Queues rm) (consistent : Consistent b) (clean : Clean rm b)
    (worker : Addr) (disconnect : Bool) :
    Dropped [worker] b (h.sWorkerDelete b worker disconnect) := by
  refine ⟨?_, ?_, ?_, helpers.delete_allocated _ _ _⟩
  · rw [helpers.delete_workers]
    simp
  · obtain ⟨workerNum, services⟩ := helpers.delete_services b worker disconnect
    refine ⟨workerNum, services.trans (List.map_congr_left fun s mem => ?_)⟩
    have listed : (s.name, s.waiting) ∈ b.queues := List.mem_map_of_mem mem
    have removed : (if b.serviceOf worker = some s.name then rm s.waiting worker else s.waiting) =
        s.waiting.filter (· ∉ [worker]) := by
      split
      · rw [clean.queues _ listed _ (.refl _)]
        simp
      · rename_i elsewhere
        refine (List.filter_eq_self.mpr fun a waits => ?_).symm
        have : a ≠ worker := by
          rintro rfl
          exact elsewhere (consistent.attached _ listed a waits)
        simpa using this
    rw [removed]
  · rw [helpers.delete_waiting, clean.broker _ (.refl _)]
    simp

theorem length_filter_lt_of_deref {w : Worker} (found : b.deref worker = some w) :
    (b.workers.filter (·.addr ∉ [worker])).length < b.workers.length := by
  refine List.length_filter_lt_length_iff_exists.mpr ⟨w, Table.mem_of_find found, ?_⟩
  simpa using Table.key_of_find found

/-- A waiting worker is in the table. -/
theorem Consistent.deref_of_waiting (consistent : Consistent b) {a : Addr} (waits : a ∈ b.waiting) :
    ∃ w name, b.deref a = some w ∧ w.service = some name := by
  obtain ⟨p, listed, mem⟩ := List.mem_flatMap.mp (consistent.agree.subset waits)
  obtain ⟨w, found, service⟩ := serviceOf_eq_some.mp (consistent.attached p listed a mem)
  exact ⟨w, p.1, found, service⟩

theorem Consistent.waiting_lt (consistent : Consistent b) {a : Addr} (waits : a ∈ b.waiting) :
    a < b.allocated := by
  obtain ⟨w, _, found, _⟩ := consistent.deref_of_waiting waits
  exact Table.key_of_find found ▸ consistent.fresh w (Table.mem_of_find found)

/-- The next address to be allocated does not wait. -/
theorem Consistent.allocated_not_waiting (consistent : Consistent b) :
    b.allocated ∉ b.waiting :=
  fun waits => lt_irrefl _ (consistent.waiting_lt waits)

/-- The purge ends, drops some workers, and leaves a first waiting worker whose
expiry is after the last reading of the clock. -/
theorem purgeLoop_spec (helpers : h.Queues rm) (clock : Nat → Nat) {fuel : Nat}
    (consistent : Consistent b) (clean : Clean rm b) (enough : b.workers.length < fuel) :
    ∃ b' gone, purgeLoop h clock fuel b.waiting.head? b = .ok b' ∧ Dropped gone b b' ∧
      b.tick ≤ b'.tick ∧
      ∀ a ∈ b'.waiting.head?, ∃ w, b'.deref a = some w ∧ clock (b'.tick - 1) < w.expiry := by
  induction fuel generalizing b with
  | zero => cases enough
  | succ fuel ih =>
      cases head : b.waiting.head? with
      | none =>
          refine ⟨b, [], rfl, .refl, le_rfl, ?_⟩
          rw [head]
          rintro a ⟨⟩
      | some a =>
          obtain ⟨w, name, found, -⟩ := consistent.deref_of_waiting (List.mem_of_mem_head? head)
          simp only [purgeLoop, found]
          split
          · have dropped : Dropped [a] b (h.sWorkerDelete b.read a false) :=
              Dropped.read.trans (dropped_delete helpers consistent.read
                (clean.dropped Dropped.read) a false)
            have fewer : (h.sWorkerDelete b.read a false).workers.length < fuel := by
              rw [dropped.workers]
              exact lt_of_lt_of_le (length_filter_lt_of_deref found) (Nat.le_of_lt_succ enough)
            obtain ⟨b', gone, ended, dropped', later, alive⟩ :=
              ih (consistent.dropped dropped) (clean.dropped dropped) fewer
            refine ⟨b', gone ++ [a], ended, dropped.trans dropped', ?_, alive⟩
            rw [helpers.delete_tick] at later
            exact (Nat.le_succ _).trans later
          · rename_i alive
            refine ⟨b.read, [], rfl, .read, Nat.le_succ _, ?_⟩
            intro a' first
            obtain rfl : a = a' := Option.some.inj (head.symm.trans first)
            exact ⟨w, found, Nat.lt_of_not_le alive⟩

theorem sBrokerPurge_spec (helpers : h.Queues rm) (clock : Nat → Nat) (consistent : Consistent b)
    (clean : Clean rm b) :
    ∃ b' gone, sBrokerPurge h clock b = .ok b' ∧ Dropped gone b b' ∧ b.tick ≤ b'.tick ∧
      ∀ a ∈ b'.waiting.head?, ∃ w, b'.deref a = some w ∧ clock (b'.tick - 1) < w.expiry :=
  purgeLoop_spec helpers clock consistent clean (Nat.lt_succ_self _)

end Purge

/-! ### Dispatching requests -/

/-- The worker taken is one of those waiting at the broker, and the others are left. -/
theorem Consistent.queues_perm (consistent : Consistent b) {s : Service}
    (found : b.service name = some s) {rest : List Addr} (first : s.waiting = worker :: rest)
    (requests : List Msg) :
    b.waiting.Perm (worker :: (b.take name worker rest requests).queues.flatMap Prod.snd) := by
  have queues : (b.take name worker rest requests).queues =
      Table.update Prod.fst name (fun p => (p.1, rest)) b.queues :=
    queues_setService (fun _ => rest) (fun _ => rfl) fun _ => rfl
  have exchanged : ((Table.update Prod.fst name (fun p => (p.1, rest)) b.queues).flatMap
      Prod.snd ++ s.waiting).Perm (b.queues.flatMap Prod.snd ++ rest) :=
    Table.flatMap_update_perm Prod.snd consistent.names (mem_queues_of_service found)
  rw [first, ← queues] at exchanged
  refine consistent.agree.trans ((List.perm_append_right_iff rest).mp ?_)
  exact exchanged.symm.trans (List.perm_middle.trans (.refl _))

/-- The first waiting worker of a service leaves both lists. -/
theorem Consistent.take (consistent : Consistent b) {s : Service} (found : b.service name = some s)
    {rest : List Addr} (first : s.waiting = worker :: rest) (requests : List Msg) :
    Consistent (b.take name worker rest requests) := by
  have queues : (b.take name worker rest requests).queues =
      Table.update Prod.fst name (fun p => (p.1, rest)) b.queues :=
    queues_setService (fun _ => rest) (fun _ => rfl) fun _ => rfl
  have names : (b.take name worker rest requests).queues.map Prod.fst =
      b.queues.map Prod.fst := by
    rw [queues]
    exact Table.keys_update fun _ => rfl
  refine ⟨consistent.fresh, names ▸ consistent.names, ?_, ?_, ?_⟩
  · intro p mem a waits
    rcases Table.mem_update.mp (queues ▸ mem) with ⟨old, _⟩ | ⟨q, old, here, rfl⟩
    · exact consistent.attached p old a waits
    · have listed : a ∈ s.waiting := first ▸ List.mem_cons_of_mem worker waits
      rw [here]
      exact consistent.attached _ (mem_queues_of_service found) a listed
  · intro a service pointed
    rw [names]
    exact consistent.known a service pointed
  · have taken := (consistent.queues_perm found first requests).erase worker
    rwa [List.erase_cons_head] at taken

/-- Services are found under their names. -/
theorem Consistent.service_of_mem (consistent : Consistent b) {s : Service}
    (mem : s ∈ b.services) : b.service s.name = some s := by
  refine Table.find_of_mem ?_ mem
  have names := consistent.names
  rwa [Broker.queues, List.map_map] at names

/-- The loop ends where workers or requests run out. -/
theorem dispatchLoop_done {s : Service} (found : b.service name = some s)
    (empty : s.waiting = [] ∨ s.requests = []) (fuel : Nat) :
    dispatchLoop name (fuel + 1) b = .ok (b, []) := by
  simp only [dispatchLoop, found]
  rcases empty with empty | empty
  · simp [empty]
  · cases waiting : s.waiting <;> simp [empty]

/-- One turn of the loop. -/
theorem dispatchLoop_turn {s : Service} {w : Worker} {rest : List Addr} {msg : Msg}
    {requests : List Msg} (found : b.service name = some s) (first : s.waiting = worker :: rest)
    (next : s.requests = msg :: requests) (allocated : b.deref worker = some w) {fuel : Nat}
    {sent : List (Addr × Msg)}
    (ok : dispatchLoop name fuel (b.take name worker rest requests) = .ok (b', sent)) :
    dispatchLoop name (fuel + 1) b = .ok (b', (worker, msg) :: sent) := by
  have pointed : (b.take name worker rest requests).deref worker = some w := allocated
  simp only [dispatchLoop, found, first, next, pointed, ok]
  rfl

/-- The loop of `s_service_dispatch` hands out the waiting workers of the service in
order, each with the next request, until either runs out. -/
theorem dispatchLoop_spec {fuel : Nat} {s : Service} (consistent : Consistent b)
    (found : b.service name = some s) (enough : s.requests.length < fuel) :
    ∃ b', dispatchLoop name fuel b = .ok (b', s.waiting.zip s.requests) ∧ Consistent b' ∧
      b'.services = (b.setService name ({ · with
        waiting := s.waiting.drop s.requests.length
        requests := s.requests.drop s.waiting.length })).services ∧
      b'.workers = b.workers ∧ b'.allocated = b.allocated ∧ b'.tick = b.tick ∧
      b'.waiting.Sublist b.waiting ∧
      b.waiting.Perm (s.waiting.take s.requests.length ++ b'.waiting) := by
  induction fuel generalizing b s with
  | zero => cases enough
  | succ fuel ih =>
      -- Nothing is written back where the loop ends at once.
      have unchanged : (b.setService name ({ · with
          waiting := s.waiting, requests := s.requests })).services = b.services := by
        apply Table.update_eq_self
        intro v mem here
        obtain rfl : v = s :=
          Option.some.inj ((consistent.service_of_mem mem).symm.trans (here ▸ found))
        rfl
      by_cases empty : s.waiting = [] ∨ s.requests = []
      · refine ⟨b, ?_, consistent, ?_, rfl, rfl, rfl, .refl _, ?_⟩
        · rw [dispatchLoop_done found empty]
          rcases empty with empty | empty <;> simp [empty]
        · rw [← unchanged]
          rcases empty with empty | empty <;> simp [empty]
        · rcases empty with empty | empty <;> simp [empty]
      · rw [not_or] at empty
        obtain ⟨worker, rest, first⟩ := List.exists_cons_of_ne_nil empty.1
        obtain ⟨msg, requests, next⟩ := List.exists_cons_of_ne_nil empty.2
        have listed : worker ∈ s.waiting := first ▸ List.mem_cons_self
        obtain ⟨w, allocated, -⟩ := serviceOf_eq_some.mp
          (consistent.attached _ (mem_queues_of_service found) worker listed)
        have found' : (b.take name worker rest requests).service name =
            some { s with waiting := rest, requests := requests } :=
          service_setService_self found fun _ => rfl
        have shorter : requests.length < fuel := by
          rw [next, List.length_cons] at enough
          exact Nat.lt_of_succ_lt_succ enough
        obtain ⟨b', ok, consistent', services, workers, allocated', tick, sub, perm⟩ :=
          ih (consistent.take found first requests) found' shorter
        refine ⟨b', ?_, consistent', ?_, workers, allocated', tick,
          sub.trans List.erase_sublist, ?_⟩
        · rw [dispatchLoop_turn found first next allocated ok, first, next]
          rfl
        · rw [services, first, next]
          exact Table.update_update fun _ => rfl
        · have here := consistent.queues_perm found first requests
          have waits : worker ∈ b.waiting := here.symm.subset List.mem_cons_self
          rw [first, next]
          exact (List.perm_cons_erase waits).trans (perm.cons worker)

end

end ZmqPractices.Majordomo
