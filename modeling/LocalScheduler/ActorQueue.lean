import LocalScheduler.WorkerPool
import Mathlib.Data.List.Sort

/-!
# The actor queues

What holds of every actor record in every reachable state, and what every handler leaves
behind. Each is proved once per operation on a record (`ActorOp`), or once per handler of the
actor path, and lifted to runs.

* `insertActorTask_sorted` — the insertion loop of `add_task_to_actor_queue` keeps a queue
  sorted by counter.
* `actor_queue_insert` — it puts the new entry right before the first entry whose counter is
  not below the new one's, and adds nothing else.
* `actor_queue_ordered` — in every reachable state each actor's queue is sorted by counter,
  and no queued counter is below the actor's `task_counter` minus one.
* `dispatchActorTask_eq_none_of_stale` — a head counter below the actor's fails the `CHECK` of
  `dispatch_actor_task`, and with it every report that the actor's worker is free.
* `dispatchActorTask_duplicateCounter` — the queue need not be strictly sorted nor at or above
  the counter: the insertion `CHECK` admits a counter that is already queued, the copy reaches
  the head once the first has run, and the next `dispatch_actor_task` fails its `CHECK`.
* `no_ready_actor` — whenever a handler has returned, no actor is ready, so no actor task
  waits for a dispatch that nothing will trigger.
-/

namespace LocalScheduler

open LocalSchedulerState

variable {n : Nat}

/-- A property of single records that every operation keeps holds of every record of every
reachable state. -/
theorem reachable_actorRecords {P : ActorID → LocalActorInfo n → Prop}
    (hop : ∀ {A k o o' c}, ActorOp A k o o' c → (∀ info ∈ o, P A info) →
      ∀ info ∈ o', P A info)
    {s : LocalSchedulerState n} (hs : Reachable s) :
    ∀ A, ∀ info ∈ s.algorithmState.localActorInfos A, P A info := by
  induction hs with
  | init h => simp [h, SchedulingAlgorithmState.init]
  | step _ h ih =>
    rcases handleEvent_actorRecords h with ⟨-, hI, -⟩ | hr
    · rwa [hI]
    · obtain ⟨ks, hops, -⟩ := hr.records
      exact hops.preserve hop ih

/-! ## The order of a queue -/

/-- The order of an actor's queue: by counter. -/
def counterLE (t t' : TaskQueueEntry n) : Prop :=
  t.spec.actorCounter ≤ t'.spec.actorCounter

theorem insertActorTask_perm (elt : TaskQueueEntry n) :
    ∀ q : List (TaskQueueEntry n), (insertActorTask elt q).Perm (elt :: q)
  | [] => List.Perm.refl _
  | t :: ts => by
    unfold insertActorTask
    split
    · exact ((insertActorTask_perm elt ts).cons t).trans (List.Perm.swap elt t ts)
    · exact List.Perm.refl _

theorem mem_insertActorTask {elt t : TaskQueueEntry n} {q : List (TaskQueueEntry n)} :
    t ∈ insertActorTask elt q ↔ t = elt ∨ t ∈ q :=
  (insertActorTask_perm elt q).mem_iff.trans List.mem_cons

/-- The insertion loop keeps a queue sorted: it stops before the first entry whose counter is
not below the new one. -/
theorem insertActorTask_sorted (elt : TaskQueueEntry n) :
    ∀ {q : List (TaskQueueEntry n)}, q.Sorted counterLE →
      (insertActorTask elt q).Sorted counterLE
  | [], _ => List.sorted_singleton _
  | t :: ts, h => by
    rw [List.sorted_cons] at h
    unfold insertActorTask
    split
    · rename_i hlt
      refine List.sorted_cons.2 ⟨fun b hb => ?_, insertActorTask_sorted elt h.2⟩
      rcases mem_insertActorTask.1 hb with rfl | hb
      · exact le_of_lt hlt
      · exact h.1 b hb
    · rename_i hle
      have hle : counterLE elt t := not_lt.1 hle
      exact List.sorted_cons.2 ⟨List.forall_mem_cons.2 ⟨hle, fun b hb => hle.trans (h.1 b hb)⟩,
        List.sorted_cons.2 h⟩

/-- The insertion loop walks past the entries whose counter is below the new one's. -/
theorem insertActorTask_eq (elt : TaskQueueEntry n) :
    ∀ q : List (TaskQueueEntry n), insertActorTask elt q =
      q.takeWhile (fun t => t.spec.actorCounter < elt.spec.actorCounter) ++
        elt :: q.dropWhile (fun t => t.spec.actorCounter < elt.spec.actorCounter)
  | [] => rfl
  | t :: ts => by
    unfold insertActorTask
    by_cases h : t.spec.actorCounter < elt.spec.actorCounter
    · simp [h, insertActorTask_eq elt ts]
    · simp [h]

/-- **Ordered insertion into an actor queue.** On a queue sorted by counter, the insertion loop
of `add_task_to_actor_queue` puts the new entry right before the first entry whose counter is
not below the new one's, or at the end if there is none. The queue stays sorted, and it is the
old queue with the one entry added. -/
theorem actor_queue_insert (elt : TaskQueueEntry n) (q : List (TaskQueueEntry n))
    (hq : q.Sorted fun t t' => t.spec.actorCounter ≤ t'.spec.actorCounter) :
    insertActorTask elt q =
      q.takeWhile (fun t => t.spec.actorCounter < elt.spec.actorCounter) ++
        elt :: q.dropWhile (fun t => t.spec.actorCounter < elt.spec.actorCounter) ∧
    (∀ t ∈ (q.dropWhile fun t => t.spec.actorCounter < elt.spec.actorCounter).head?,
      elt.spec.actorCounter ≤ t.spec.actorCounter) ∧
    (insertActorTask elt q).Sorted (fun t t' => t.spec.actorCounter ≤ t'.spec.actorCounter) ∧
    List.Perm (insertActorTask elt q) (elt :: q) := by
  refine ⟨insertActorTask_eq elt q, fun t ht => ?_, insertActorTask_sorted elt hq,
    insertActorTask_perm elt q⟩
  -- the first entry the loop stops at is not below the new counter
  have := List.head?_dropWhile_not
    (fun t : TaskQueueEntry n => decide (t.spec.actorCounter < elt.spec.actorCounter)) q
  rw [Option.mem_def.1 ht] at this
  simpa using this

/-- Two entries of actor `5`, with counters `0` and `2`. -/
def counterGapQueue : List (TaskQueueEntry 1) :=
  [⟨0, ⟨0, 5, 0, [], fun _ => 0⟩, 0⟩, ⟨1, ⟨0, 5, 2, [], fun _ => 0⟩, 0⟩]

/-- An entry of actor `5` with counter `1`. -/
def counterOneEntry : TaskQueueEntry 1 := ⟨2, ⟨0, 5, 1, [], fun _ => 0⟩, 0⟩

/-- The counter-`1` entry lands between the two. -/
example : (insertActorTask counterOneEntry counterGapQueue).map (·.specAddr) = [0, 2, 1] := by
  decide

theorem actor_queue_insert_counterGap :
    counterGapQueue.Sorted (fun t t' => t.spec.actorCounter ≤ t'.spec.actorCounter) ∧
    (insertActorTask counterOneEntry counterGapQueue =
      counterGapQueue.takeWhile
          (fun t => t.spec.actorCounter < counterOneEntry.spec.actorCounter) ++
        counterOneEntry :: counterGapQueue.dropWhile
          (fun t => t.spec.actorCounter < counterOneEntry.spec.actorCounter) ∧
    (∀ t ∈ (counterGapQueue.dropWhile
        fun t => t.spec.actorCounter < counterOneEntry.spec.actorCounter).head?,
      counterOneEntry.spec.actorCounter ≤ t.spec.actorCounter) ∧
    (insertActorTask counterOneEntry counterGapQueue).Sorted
      (fun t t' => t.spec.actorCounter ≤ t'.spec.actorCounter) ∧
    List.Perm (insertActorTask counterOneEntry counterGapQueue)
      (counterOneEntry :: counterGapQueue)) :=
  have h : counterGapQueue.Sorted (fun t t' => t.spec.actorCounter ≤ t'.spec.actorCounter) := by
    decide
  ⟨h, actor_queue_insert counterOneEntry counterGapQueue h⟩

/-- A record's queue is sorted by counter, and no queued counter is below the actor's counter
minus one. -/
def LocalActorInfo.QueueOrdered (info : LocalActorInfo n) : Prop :=
  info.taskQueue.Sorted counterLE ∧ ∀ t ∈ info.taskQueue, info.taskCounter ≤ t.spec.actorCounter + 1

/-- Every operation keeps a record's queue ordered. An insertion is at or above the counter,
so the loop keeps the queue sorted; a dispatch runs the head, whose counter is the actor's,
and every other entry is at or above it. -/
theorem ActorOp.queueOrdered {A : ActorID} {k : ActorOpKind} {o o' : Option (LocalActorInfo n)}
    {c : List (TaskQueueEntry n × LocalSchedulerClient)} (h : ActorOp A k o o' c)
    (ho : ∀ info ∈ o, info.QueueOrdered) : ∀ info ∈ o', info.QueueOrdered := by
  cases h with
  | create => simp [LocalActorInfo.QueueOrdered]
  | insert _ hcounter =>
    obtain ⟨hsorted, habove⟩ := ho _ rfl
    simp only [Option.mem_def, Option.some.injEq, forall_eq']
    refine ⟨insertActorTask_sorted _ hsorted, fun t ht => ?_⟩
    rcases mem_insertActorTask.1 ht with rfl | ht
    · exact le_add_of_le_of_nonneg hcounter zero_le_one
    · exact habove t ht
  | connect => simpa [LocalActorInfo.QueueOrdered] using ho
  | available => simpa [LocalActorInfo.QueueOrdered] using ho
  | dispatch _ hq hcounter =>
    obtain ⟨hsorted, -⟩ := ho _ rfl
    rw [hq, List.sorted_cons] at hsorted
    simp only [Option.mem_def, Option.some.injEq, forall_eq']
    refine ⟨hsorted.2, fun t ht => ?_⟩
    have : counterLE _ t := hsorted.1 t ht
    unfold counterLE at this
    dsimp only
    omega
  | remove => simp

/-- **The actor queues.** In every reachable state each actor's queue is sorted by counter
(not strictly: one counter may be queued twice), and no queued counter is below the actor's
`task_counter` minus one. -/
theorem actor_queue_ordered (s : LocalSchedulerState n) (hs : Reachable s) (A : ActorID)
    (info : LocalActorInfo n) (hinfo : s.algorithmState.localActorInfos A = some info) :
    info.taskQueue.Sorted (fun t t' => t.spec.actorCounter ≤ t'.spec.actorCounter) ∧
      ∀ t ∈ info.taskQueue, info.taskCounter ≤ t.spec.actorCounter + 1 :=
  reachable_actorRecords (P := fun _ info => info.QueueOrdered) (fun h => h.queueOrdered) hs A
    info hinfo

/-! ## A head below the counter -/

/-- A head whose counter is below the actor's fails the `CHECK(next_task_counter >
entry.task_counter)` of `dispatch_actor_task`, whatever else the state holds (if an earlier
`CHECK` has not failed already). -/
theorem dispatchActorTask_eq_none_of_stale {s : LocalSchedulerState n} {A : ActorID}
    {info : LocalActorInfo n} {t : TaskQueueEntry n} {rest : List (TaskQueueEntry n)}
    (hinfo : s.algorithmState.localActorInfos A = some info) (hq : info.taskQueue = t :: rest)
    (hlt : t.spec.actorCounter < info.taskCounter) : dispatchActorTask s A = none := by
  simp [dispatchActorTask, hinfo, hq, hlt.ne, not_lt.2 hlt.le]

/-- So a report that the actor's worker is free aborts: the handler's own `CHECK`s either fail
or lead to that dispatch. -/
theorem handleActorWorkerAvailable_eq_none_of_stale {s : LocalSchedulerState n}
    {w : LocalSchedulerClient} {info : LocalActorInfo n} {t : TaskQueueEntry n}
    {rest : List (TaskQueueEntry n)}
    (hinfo : s.algorithmState.localActorInfos w.actorId = some info)
    (hq : info.taskQueue = t :: rest) (hlt : t.spec.actorCounter < info.taskCounter) :
    handleActorWorkerAvailable s w = none := by
  have hd := @dispatchActorTask_eq_none_of_stale n
    { s with algorithmState := (s.algorithmState.setActorInfo w.actorId
      (some { info with workerAvailable := true })) } w.actorId { info with workerAvailable := true }
    t rest (by simp [SchedulingAlgorithmState.setActorInfo]) hq hlt
  simp only [handleActorWorkerAvailable, check_bind, hinfo, Option.bind_eq_bind, Option.some_bind,
    hd, Option.none_bind, ite_self]

/-! ## Runs of actor `5` -/

/-- The worker of actor `5`. -/
def actorFiveWorker : LocalSchedulerClient := ⟨9, 5⟩

/-- A task of actor `5` with counter `c` that needs no resources. -/
def actorFiveTask (c : Int) : TaskSpec 1 := ⟨0, 5, c, [], fun _ => 0⟩

/-- A node whose database client is `1`, on which actor `5` lives. -/
def actorFiveNode : LocalSchedulerState 1 where
  algorithmState := SchedulingAlgorithmState.init 1
  db := some 1
  globalSchedulerExists := true
  actorMapping := fun A => if A = 5 then some 1 else none
  staticResources := fun _ => 1
  dynamicResources := fun _ => 1
  plasmaConnected := true
  numChildPids := 0
  nextAddress := 0

/-- Counters `1` and `0` arrive out of order; the worker connects and is reported free twice. -/
def outOfOrderEvents : List (Event 1) :=
  [.actorTaskSubmitted (actorFiveTask 1) 0, .actorTaskSubmitted (actorFiveTask 0) 0,
    .actorWorkerConnect actorFiveWorker, .actorWorkerAvailable actorFiveWorker,
    .actorWorkerAvailable actorFiveWorker]

/-- The end of that run. -/
def outOfOrderRun : LocalSchedulerState 1 × List (Observation 1) :=
  (runEvents actorFiveNode outOfOrderEvents).getD (actorFiveNode, [])

theorem runEvents_outOfOrder : runEvents actorFiveNode outOfOrderEvents = some outOfOrderRun :=
  rfl

theorem reachable_outOfOrderRun : Reachable outOfOrderRun.1 :=
  runEvents_reachable (.init rfl) runEvents_outOfOrder

/-- Both tasks ran, in counter order. -/
example : (outOfOrderRun.1.algorithmState.localActorInfos 5).map
    (fun info => (info.taskCounter, info.taskQueue.length)) = some (2, 0) := by
  decide

/-- Counter `0` is submitted twice; the worker connects and is reported free. -/
def duplicateCounterEvents : List (Event 1) :=
  [.actorTaskSubmitted (actorFiveTask 0) 0, .actorTaskSubmitted (actorFiveTask 0) 0,
    .actorWorkerConnect actorFiveWorker, .actorWorkerAvailable actorFiveWorker]

/-- The end of that run. -/
def duplicateCounterRun : LocalSchedulerState 1 × List (Observation 1) :=
  (runEvents actorFiveNode duplicateCounterEvents).getD (actorFiveNode, [])

theorem runEvents_duplicateCounter :
    runEvents actorFiveNode duplicateCounterEvents = some duplicateCounterRun :=
  rfl

/-- **A counter queued twice aborts the next dispatch.** `add_task_to_actor_queue` accepts
counter `0` twice for actor `5` (its `CHECK(task_counter >= entry.task_counter)` admits an
equal counter), so the queue holds both copies. Once the worker has run the first, the actor's
counter is `1` and the second copy is at the head; the worker is the actor's and busy, so its
next report that it is free passes the `CHECK`s of `handle_actor_worker_available` and then
aborts in the `CHECK(next_task_counter > entry.task_counter)` of `dispatch_actor_task`. -/
theorem dispatchActorTask_duplicateCounter :
    ((runEvents actorFiveNode (duplicateCounterEvents.take 2)).map fun r =>
      (r.1.algorithmState.localActorInfos 5).map fun info =>
        info.taskQueue.map (·.spec.actorCounter)) = some (some [0, 0]) ∧
    Reachable duplicateCounterRun.1 ∧
    ∃ info t, duplicateCounterRun.1.algorithmState.localActorInfos 5 = some info ∧
      info.taskQueue = [t] ∧ t.spec.actorCounter < info.taskCounter ∧
      info.worker = some actorFiveWorker ∧ info.workerAvailable = false ∧
      handleEvent duplicateCounterRun.1 (.actorWorkerAvailable actorFiveWorker) = none := by
  obtain ⟨info, t, hinfo, hq, hlt, hw, ha⟩ : ∃ info t,
      duplicateCounterRun.1.algorithmState.localActorInfos 5 = some info ∧
        info.taskQueue = [t] ∧ t.spec.actorCounter < info.taskCounter ∧
        info.worker = some actorFiveWorker ∧ info.workerAvailable = false :=
    ⟨_, _, rfl, rfl, by decide, rfl, rfl⟩
  exact ⟨by decide, runEvents_reachable (.init rfl) runEvents_duplicateCounter, info, t, hinfo,
    hq, hlt, hw, ha, handleActorWorkerAvailable_eq_none_of_stale hinfo hq hlt⟩

/-! ## No actor is left ready -/

/-- No actor is ready: what every handler leaves behind. -/
def NoReadyActor (s : LocalSchedulerState n) : Prop :=
  ∀ A, ∀ info ∈ s.algorithmState.localActorInfos A, ¬ info.ready

section Handlers

variable {s : LocalSchedulerState n} {r : LocalSchedulerState n × List (Effect n)}
  {allowed : List (ActorID × ActorOpKind) → Prop} {A : ActorID}

/-- A step whose operations are all on `A` leaves every other record alone. -/
theorem ActorPathStep.infos_of_ne {B : ActorID} (h : ActorPathStep allowed s r)
    (hallowed : ∀ ks, allowed ks → ∀ p ∈ ks, p.1 = A) (hB : B ≠ A) :
    r.1.algorithmState.localActorInfos B = s.algorithmState.localActorInfos B :=
  let ⟨ks, hops, hks⟩ := h.records
  hops.apply_of_forall_ne fun p hp => by rw [hallowed ks hks p hp]; exact hB.symm

/-- A handler that works on the record of `A` and ends in `dispatch_actor_task` for `A`
leaves no actor ready if none was. -/
theorem DispatchesAfter.noReadyActor {first : List (ActorID × ActorOpKind) → Prop}
    (hfirst : ∀ ks, first ks → ∀ p ∈ ks, p.1 = A) (h : DispatchesAfter first A s r)
    (hs : NoReadyActor s) : NoReadyActor r.1 := by
  obtain ⟨q, d, hq, hd, rfl⟩ := h
  intro B
  by_cases hB : B = A
  · exact hB ▸ dispatchActorTask_not_ready hd
  · have hdispatch := (dispatchActorTask_actorPathStep hd).infos_of_ne
      (fun _ hks p hp => congrArg Prod.fst (List.mem_singleton.1 (hks hp))) hB
    rw [show d.1.algorithmState.localActorInfos B = _ from hdispatch, hq.infos_of_ne hfirst hB]
    exact hs B

theorem fst_eq_of_subset_queueOps {ks : List (ActorID × ActorOpKind)}
    (hks : ks ⊆ [(A, .create none), (A, .insert)]) : ∀ p ∈ ks, p.1 = A := by
  intro p hp
  rcases List.mem_pair.1 (hks hp) with rfl | rfl <;> rfl

theorem handleActorTaskSubmitted_noReadyActor {spec : TaskSpec n} {size : Int}
    (h : handleActorTaskSubmitted s spec size = some r) (hs : NoReadyActor s) :
    NoReadyActor r.1 := by
  rcases handleActorTaskSubmitted_cases h with h | h
  · obtain ⟨ks, hops, rfl⟩ := h.records
    intro B
    rw [hops.apply_of_forall_ne fun p hp => absurd hp (List.not_mem_nil p)]
    exact hs B
  · exact h.noReadyActor (fun _ => fst_eq_of_subset_queueOps) hs

theorem replayCachedActorTasks_noReadyActor :
    ∀ {k i : Nat} {s : LocalSchedulerState n} {r : LocalSchedulerState n × List (Effect n)},
      replayCachedActorTasks k i s = some r → NoReadyActor s → NoReadyActor r.1
  | 0, _, _, _, h, hs => Option.some.inj h ▸ hs
  | k + 1, i, s, r, h, hs => by
    simp only [replayCachedActorTasks, Option.bind_eq_bind, Option.bind_eq_some, Option.pure_def,
      Option.some.injEq] at h
    obtain ⟨spec, -, size, -, q, hq, q', hq', rfl⟩ := h
    exact replayCachedActorTasks_noReadyActor (r := q') hq'
      (handleActorTaskSubmitted_noReadyActor hq hs)

/-- Each handler leaves no actor ready if none was. -/
theorem handleEvent_noReadyActor {e : Event n} (hs : NoReadyActor s)
    (h : handleEvent s e = some r) : NoReadyActor r.1 := by
  rcases handleEvent_actorRecords h with ⟨-, hI, -⟩ | hr
  · simpa only [NoReadyActor, hI] using hs
  obtain ⟨ks, hops, hks⟩ := hr.records
  cases e with
  | actorTaskSubmitted spec size => exact handleActorTaskSubmitted_noReadyActor h hs
  | actorTaskScheduled spec size =>
    exact (handleActorTaskScheduled_dispatchesAfter h).noReadyActor
      (fun _ => fst_eq_of_subset_queueOps) hs
  | actorCreationNotification A =>
    simp only [handleEvent, handleActorCreationNotification, check_bind,
      Option.ite_none_right_eq_some, Option.bind_eq_bind, Option.bind_eq_some, Option.pure_def,
      Option.some.injEq] at h
    obtain ⟨-, q, hq, rfl⟩ := h
    exact replayCachedActorTasks_noReadyActor (r := q) hq hs
  | actorWorkerAvailable w =>
    exact (handleActorWorkerAvailable_dispatchesAfter h).noReadyActor
      (fun _ hks p hp => by rw [hks, List.mem_singleton] at hp; rw [hp]) hs
  | actorWorkerConnect w =>
    refine (handleActorWorkerConnect_dispatchesAfter rfl h).noReadyActor (fun _ hks p hp => ?_) hs
    rcases hks with rfl | rfl <;> rw [List.mem_singleton.1 hp]
  | actorWorkerDisconnect B =>
    obtain ⟨o, hop, hI⟩ := ActorOps.of_single (hks ▸ hops)
    obtain ⟨rfl, -⟩ := hop.eq_none_of_remove
    intro A
    rw [hI]
    by_cases hA : A = B
    · subst hA
      simp
    · rw [Function.update_noteq hA]
      exact hs A
  | _ => exact hks.elim

end Handlers

theorem reachable_noReadyActor {s : LocalSchedulerState n} (hs : Reachable s) :
    NoReadyActor s := by
  induction hs with
  | init h => simp [NoReadyActor, h, SchedulingAlgorithmState.init]
  | step _ h ih => exact handleEvent_noReadyActor ih h

/-- **No lost wake-up for actors.** Whenever a handler has returned, no actor with a record
has its worker available while the head of its queue has the actor's next counter. -/
theorem no_ready_actor (s : LocalSchedulerState n) (hs : Reachable s) (A : ActorID)
    (info : LocalActorInfo n) (hinfo : s.algorithmState.localActorInfos A = some info) :
    ¬ (info.workerAvailable = true ∧ ∃ first rest, info.taskQueue = first :: rest ∧
      first.spec.actorCounter = info.taskCounter) := by
  rintro ⟨havailable, first, rest, hq, hcounter⟩
  exact reachable_noReadyActor hs A info hinfo ⟨havailable, by simp [hq, hcounter]⟩

theorem no_ready_actor_outOfOrder :
    ∃ info, outOfOrderRun.1.algorithmState.localActorInfos 5 = some info ∧
      ¬ (info.workerAvailable = true ∧ ∃ first rest, info.taskQueue = first :: rest ∧
        first.spec.actorCounter = info.taskCounter) := by
  obtain ⟨info, hinfo⟩ :
      ∃ info, outOfOrderRun.1.algorithmState.localActorInfos 5 = some info :=
    Option.isSome_iff_exists.1 (by decide)
  exact ⟨info, hinfo, no_ready_actor _ reachable_outOfOrderRun 5 info hinfo⟩

end LocalScheduler
