import ZmqPractices.Majordomo.Dispatch

/-!
A worker is available once, or busy, and where that fails.

A worker is available when it is in the waiting lists. The REPLY branch of
`s_broker_worker_msg` only tests whether its sender is registered, so a REPLY from a
worker that is waiting already lists it a second time, and two requests can be with
it at once (`reply_lists_twice`). `available_iff` says that this is the only way.

`s_worker_delete` removes one occurrence of a worker from each list here, as
`zlist_remove` does. While no worker is listed twice, that is all of them.
-/

namespace ZmqPractices.Majordomo

open Czmq Lib

/-- Every worker is at most once in each list, a worker with an outstanding request
is in none and has no second one, and every worker in a list is allocated. -/
structure Available (s : State) : Prop where
  broker_once : s.broker.waiting.Nodup
  service_once : ∀ service ∈ s.broker.services, service.waiting.Nodup
  busy : ∀ a ∈ s.outstanding, a ∉ s.broker.waiting ∧
    ∀ service ∈ s.broker.services, a ∉ service.waiting
  one_request : ∀ a, s.outstanding.count a ≤ 1
  allocated : (∀ a ∈ s.broker.waiting, (s.broker.deref a).isSome) ∧
    ∀ service ∈ s.broker.services, ∀ a ∈ service.waiting, (s.broker.deref a).isSome

/-- A REPLY of a registered worker comes when the worker is not waiting. -/
def RepliesWhenBusy (s : State) : Event → Prop
  | .worker sender msg =>
      ∀ worker, answered s.broker sender msg = some worker → worker ∉ s.broker.waiting
  | .client _ _ => True

/-- The lists fit together and outstanding requests are with workers that were once
allocated. -/
structure Tracked (s : State) : Prop where
  consistent : Consistent s.broker
  bound : ∀ a ∈ s.outstanding, a < s.broker.allocated

section

variable {h : Helpers} {clock : Nat → Nat} {b b' : Broker} {s s' : State}

/-- What a service lists, the broker lists. -/
theorem Consistent.waiting_of_service (consistent : Consistent b) {service : Service}
    (mem : service ∈ b.services) {a : Addr} (waits : a ∈ service.waiting) : a ∈ b.waiting :=
  consistent.waiting_perm.symm.subset (List.mem_flatMap.mpr ⟨service, mem, waits⟩)

theorem Consistent.service_nodup (consistent : Consistent b) (nodup : b.waiting.Nodup)
    {service : Service} (mem : service ∈ b.services) : service.waiting.Nodup :=
  (List.nodup_flatMap.mp (consistent.waiting_perm.nodup_iff.mp nodup)).1 service mem

theorem nodup_append_singleton {waiting : List Addr} {a : Addr} :
    (waiting ++ [a]).Nodup ↔ a ∉ waiting ∧ waiting.Nodup :=
  List.nodup_append_comm.trans List.nodup_cons

/-- The broker's list decides. -/
theorem available_of_consistent (consistent : Consistent s.broker) :
    Available s ↔ s.broker.waiting.Nodup ∧ s.outstanding.Nodup ∧
      ∀ a ∈ s.outstanding, a ∉ s.broker.waiting := by
  constructor
  · intro available
    exact ⟨available.broker_once, List.nodup_iff_count_le_one.mpr available.one_request,
      fun a mem => (available.busy a mem).1⟩
  · rintro ⟨once, outstanding, busy⟩
    have allocated : ∀ a ∈ s.broker.waiting, (s.broker.deref a).isSome := by
      intro a waits
      obtain ⟨w, _, found, _⟩ := consistent.deref_of_waiting waits
      rw [found]
      rfl
    constructor
    · exact once
    · intro service mem
      exact consistent.service_nodup once mem
    · intro a mem
      refine ⟨busy a mem, fun service listed waits => ?_⟩
      exact busy a mem (consistent.waiting_of_service listed waits)
    · exact List.nodup_iff_count_le_one.mp outstanding
    · refine ⟨allocated, fun service listed a waits => ?_⟩
      exact allocated a (consistent.waiting_of_service listed waits)

theorem clean_erase (consistent : Consistent b) (once : b.waiting.Nodup) :
    Clean List.erase b := by
  constructor
  · exact removesAll_erase once
  · intro p listed
    obtain ⟨service, mem, rfl⟩ := List.mem_map.mp listed
    exact removesAll_erase (consistent.service_nodup once mem)

/-! ### What each message does to the lists and the outstanding requests -/

/-- The workers a message takes off the table were allocated. -/
theorem Handled.allocated_le {sender command : Frame} {rm : List Addr → Addr → List Addr}
    (helpers : h.Queues rm) (handled : Handled h clock b sender command b') :
    b.allocated ≤ b'.allocated := by
  cases handled with
  | forget w command disconnect => exact (helpers.delete_allocated _ _ _).ge
  | refuse command disconnect =>
      rw [helpers.delete_allocated]
      exact Nat.le_succ _
  | register b₁ name absent attached =>
      rw [helpers.waiting_allocated, attached]
      change b.allocated ≤ ((b.insertWorker sender).requireService name).allocated
      rw [(requireService_same _ name).2.2]
      exact Nat.le_succ _
  | answer =>
      rw [helpers.waiting_allocated]
      exact le_rfl
  | refresh => exact le_rfl
  | ignore => exact le_rfl
  | leave => exact Nat.le_succ _

/-- A worker message leaves the broker's list a sublist, or puts a worker at its end:
a new one, or one that replies. -/
theorem Handled.waiting_cases {sender command : Frame} (helpers : h.Queues List.erase)
    (rest : Msg) (handled : Handled h clock b sender command b') :
    (b'.waiting.Sublist b.waiting ∧ answered b sender (command :: rest) = none) ∨
    (b'.waiting = b.waiting ++ [b.allocated] ∧ answered b sender (command :: rest) = none) ∨
    ∃ worker, b'.waiting = b.waiting ++ [worker] ∧
      answered b sender (command :: rest) = some worker := by
  have quiet : ∀ c, c ≠ mdpwReply → answered b sender (c :: rest) = none := by
    intro c other
    simp [answered, other]
  have missing : b.lookup (zframeStrhex sender) = none →
      answered b sender (command :: rest) = none := by
    intro missing
    simp [answered, missing]
  cases handled with
  | forget w command disconnect found which =>
      refine .inl ⟨?_, quiet _ ?_⟩
      · rw [helpers.delete_waiting]
        exact List.erase_sublist
      · rcases which with rfl | rfl <;> decide
  | refuse command disconnect absent known =>
      refine .inl ⟨?_, missing absent⟩
      rw [helpers.delete_waiting]
      exact List.erase_sublist
  | register b₁ name absent attached =>
      refine .inr (.inl ⟨?_, missing absent⟩)
      rw [helpers.waiting_waiting, attached]
      change ((b.insertWorker sender).requireService name).waiting ++ _ = _
      rw [(requireService_same _ name).1]
      rfl
  | answer w w' name found pointed service =>
      refine .inr (.inr ⟨w.addr, helpers.waiting_waiting _ _ _, ?_⟩)
      simp [answered, found]
  | refresh w found => exact .inl ⟨.refl _, quiet _ (by decide)⟩
  | ignore w command found unknown =>
      refine .inl ⟨.refl _, quiet _ ?_⟩
      rintro rfl
      exact unknown (by decide)
  | leave command absent unknown => exact .inl ⟨.refl _, missing absent⟩

/-- A worker message keeps every worker available once, or busy, exactly when it is
not a REPLY of a waiting worker. -/
theorem Available.worker (helpers : h.Queues List.erase) {sender command : Frame} (rest : Msg)
    (tracked : Tracked s) (available : Available s)
    (handled : Handled h clock s.broker sender command s'.broker)
    (outstanding : s'.outstanding =
      (answered s.broker sender (command :: rest)).elim s.outstanding s.outstanding.erase) :
    Tracked s' ∧
      (Available s' ↔ RepliesWhenBusy s (.worker sender (command :: rest))) := by
  have once := available.broker_once
  have consistent := tracked.consistent.handled helpers
    (clean_erase tracked.consistent once) handled
  obtain ⟨_, nodup, busy⟩ := (available_of_consistent tracked.consistent).mp available
  have tracked' : Tracked s' := by
    refine ⟨consistent, fun a mem => ?_⟩
    have old : a ∈ s.outstanding := by
      rw [outstanding] at mem
      cases found : answered s.broker sender (command :: rest) with
      | none => exact (found ▸ mem : a ∈ (none : Option Addr).elim s.outstanding _)
      | some worker =>
          rw [found] at mem
          exact List.mem_of_mem_erase mem
    exact lt_of_lt_of_le (tracked.bound a old) (handled.allocated_le helpers)
  refine ⟨tracked', ?_⟩
  rw [available_of_consistent consistent, RepliesWhenBusy]
  rcases handled.waiting_cases helpers rest with
    ⟨sub, quiet⟩ | ⟨waiting, quiet⟩ | ⟨worker, waiting, replied⟩
  · rw [quiet, Option.elim_none] at outstanding
    rw [outstanding, quiet]
    apply iff_of_true
    · exact ⟨once.sublist sub, nodup, fun a mem waits => busy a mem (sub.subset waits)⟩
    · rintro worker ⟨⟩
  · have new := tracked.consistent.allocated_not_waiting
    rw [quiet, Option.elim_none] at outstanding
    rw [outstanding, quiet, waiting]
    apply iff_of_true
    · refine ⟨nodup_append_singleton.mpr ⟨new, once⟩, nodup, fun a mem waits => ?_⟩
      rcases List.mem_append.mp waits with old | single
      · exact busy a mem old
      · exact (tracked.bound a mem).ne (List.mem_singleton.mp single)
    · rintro worker ⟨⟩
  · rw [replied, Option.elim_some] at outstanding
    rw [outstanding, replied, waiting]
    constructor
    · rintro ⟨once', _⟩ _ ⟨⟩
      exact (nodup_append_singleton.mp once').1
    · intro idle
      refine ⟨nodup_append_singleton.mpr ⟨idle worker rfl, once⟩, nodup.erase worker, ?_⟩
      intro a mem waits
      obtain ⟨other, mem⟩ := nodup.mem_erase_iff.mp mem
      rcases List.mem_append.mp waits with old | single
      · exact busy a mem old
      · exact other (List.mem_singleton.mp single)

/-- A client message sends each waiting worker at most one request and takes it off
the list. -/
theorem Available.client (helpers : h.Queues List.erase) {sender : Frame} {msg : Msg}
    {out : List Output} (tracked : Tracked s) (available : Available s)
    (ok : sBrokerClientMsg h clock s.broker sender msg = .ok (s'.broker, out))
    (outstanding : s'.outstanding = out.filterMap Output.worker? ++ s.outstanding) :
    Tracked s' ∧ Available s' := by
  obtain ⟨once, nodup, busy⟩ := (available_of_consistent tracked.consistent).mp available
  have clean := clean_erase tracked.consistent once
  have consistent := tracked.consistent.client helpers clean ok
  obtain ⟨name, ⟨same, quiet⟩ | ⟨service, purged, sent, mem, request, dispatch, requests⟩⟩ :=
    client_cases helpers tracked.consistent clean ok
  · obtain ⟨waiting, -, allocated⟩ := requireService_same s.broker name
    rw [quiet, List.nil_append] at outstanding
    constructor
    · refine ⟨consistent, fun a mem => ?_⟩
      rw [same, allocated]
      exact tracked.bound a (outstanding ▸ mem)
    · rw [available_of_consistent consistent, outstanding, same, waiting]
      exact ⟨once, nodup, busy⟩
  · obtain ⟨waiting, -, allocated⟩ := requireService_same s.broker name
    rw [requests] at outstanding
    obtain ⟨gone, dropped⟩ := dispatch.dropped
    -- The workers that are sent a request and those left waiting are among the waiting ones.
    have purged_waiting : purged.waiting = s.broker.waiting.filter (· ∉ gone) :=
      waiting ▸ dropped.waiting
    have sub : ∀ a ∈ sent.map Prod.fst ++ s'.broker.waiting, a ∈ s.broker.waiting := by
      intro a mem
      have left := dispatch.perm.symm.subset mem
      rw [purged_waiting] at left
      exact List.mem_of_mem_filter left
    have apart : (sent.map Prod.fst ++ s'.broker.waiting).Nodup := by
      rw [← dispatch.perm.nodup_iff, purged_waiting]
      exact once.filter _
    obtain ⟨distinct, once', disjoint⟩ := List.nodup_append.mp apart
    have idle : ∀ a ∈ sent.map Prod.fst, a ∉ s.outstanding := fun a mem held =>
      busy a held (sub a (List.mem_append_left _ mem))
    constructor
    · refine ⟨consistent, fun a mem => ?_⟩
      rw [dispatch.allocated, allocated]
      rcases List.mem_append.mp (outstanding ▸ mem) with new | old
      · exact tracked.consistent.waiting_lt (sub a (List.mem_append_left _ new))
      · exact tracked.bound a old
    · rw [available_of_consistent consistent, outstanding]
      refine ⟨once', ?_, fun a mem waits => ?_⟩
      · rw [List.nodup_append]
        refine ⟨distinct, nodup, fun a new b old same => ?_⟩
        exact idle a new (same ▸ old)
      · rcases List.mem_append.mp mem with new | old
        · exact disjoint a new a waits rfl
        · exact busy a old (sub a (List.mem_append_right _ waits))

end

/-- **Available once, or busy.** In every state of a run every worker is at most once
in each waiting list, a worker with an outstanding request is in none and has only
that one, and no list holds a deleted worker, exactly when no REPLY comes from a
worker that is waiting. -/
theorem available_iff {h : Helpers} (helpers : h.Queues List.erase) (clock : Nat → Nat)
    {past : List (State × Event)} {s : State} (run : Run (majordomo h clock) past s) :
    Always Available past s ↔ EachStep RepliesWhenBusy past := by
  have start : Tracked (majordomo h clock).start :=
    ⟨consistent_start, fun _ mem => by cases mem⟩
  apply run.exact Tracked Available RepliesWhenBusy
  · refine ⟨start, (available_of_consistent start.consistent).mpr ⟨.nil, .nil, ?_⟩⟩
    rintro a ⟨⟩
  · intro s event s' tracked available taken
    cases event with
    | worker sender msg =>
        obtain ⟨out, ok, outstanding⟩ := majordomo_step_worker taken
        obtain ⟨command, rest, rfl, handled⟩ := handled_of_sBrokerWorkerMsg helpers.toRegisters ok
        obtain ⟨tracked', exact⟩ := available.worker helpers rest tracked handled outstanding
        exact ⟨exact, fun _ => tracked'⟩
    | client sender msg =>
        obtain ⟨out, ok, outstanding⟩ := majordomo_step_client taken
        obtain ⟨tracked', available'⟩ := available.client helpers tracked ok outstanding
        exact ⟨iff_of_true available' trivial, fun _ => tracked'⟩

/-- A run in which a worker replies to the request it was sent. -/
theorem available_iff_replying :
    ∃ past s, Run (majordomo (Helpers.plain List.erase) id) past s ∧
      s.broker.waiting = [0] ∧ s.outstanding = [] ∧
      (Always Available past s ↔ EachStep RepliesWhenBusy past) := by
  have ran : ((majordomo (Helpers.plain List.erase) id).exec
      (majordomo (Helpers.plain List.erase) id).start
      [.worker [0x41] [mdpwReady, [0x73]], .client [0x43] [[0x73], [0x44]],
        .worker [0x41] [mdpwReply, [0x43], [], [0x44]]]).map
          (fun s => (s.broker.waiting, s.outstanding)) = some ([0], []) := by decide
  obtain ⟨s, done, seen⟩ := Option.map_eq_some_iff.mp ran
  obtain ⟨waiting, outstanding⟩ := Prod.mk.inj seen
  obtain ⟨past, run⟩ := Reachable.start.exec done
  exact ⟨past, s, run, waiting, outstanding, available_iff (Helpers.plain_queues _) _ run⟩

/-- A worker registers and replies without a request; it is then listed twice, and
two client requests go to it at once. -/
theorem reply_lists_twice :
    ∃ s s', Reachable (majordomo (Helpers.plain List.erase) id) s ∧
      s.broker.waiting = [0, 0] ∧ ¬ Available s ∧
      Reachable (majordomo (Helpers.plain List.erase) id) s' ∧ s'.outstanding = [0, 0] := by
  have ran : ((majordomo (Helpers.plain List.erase) id).exec
      (majordomo (Helpers.plain List.erase) id).start
      [.worker [0x41] [mdpwReady, [0x73]],
        .worker [0x41] [mdpwReply, [0x43], [], [0x44]]]).map (fun s => s.broker.waiting) =
      some [0, 0] := by decide
  have ran' : ((majordomo (Helpers.plain List.erase) id).exec
      (majordomo (Helpers.plain List.erase) id).start
      [.worker [0x41] [mdpwReady, [0x73]], .worker [0x41] [mdpwReply, [0x43], [], [0x44]],
        .client [0x43] [[0x73], [0x45]], .client [0x43] [[0x73], [0x46]]]).map
          State.outstanding = some [0, 0] := by decide
  obtain ⟨s, done, waiting⟩ := Option.map_eq_some_iff.mp ran
  obtain ⟨s', done', outstanding⟩ := Option.map_eq_some_iff.mp ran'
  refine ⟨s, s', Reachable.start.exec done, waiting, fun available => ?_,
    Reachable.start.exec done', outstanding⟩
  have once := available.broker_once
  rw [waiting] at once
  exact absurd once (by decide)

end ZmqPractices.Majordomo
