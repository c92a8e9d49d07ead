import LocalScheduler.TrackerInvariant

/-!
# What the scheduler asks of the object store

The local scheduler calls the object store in two places, both guarded by
`plasma_manager_is_connected`: `fetch_missing_dependency` fetches an argument the first time a
queued task misses it, and `fetch_object_timeout_handler` fetches, and asks to reconstruct,
every object of `remote_objects`. The question here is whether a handler can ask for an object
nobody waits on: one that is already local, or that no queued task needs. It cannot.

* `RequestsAwaited` — every object a list of calls asks for is asked for while the store is
  connected and has dependents in a `remote_objects` table. Dependents are only appended while
  a handler registers cursors (`RequestsAwaited.mono`), so each loop keeps it.
* `handleEvent_requestsAwaited` — every step asks only for objects with dependents in the table
  it leaves; the actor path and `dispatch_tasks` ask for nothing.
* `object_requests_awaited` — in every reachable state, each object a step asks to fetch or to
  reconstruct is, once the step is over, not local and an argument of a task in the waiting
  queue; and it is asked for only while the store is connected.
-/

namespace LocalScheduler

open LocalSchedulerState

variable {n : Nat}

/-- The objects a call asks the object store for: `plasma_fetch` and `reconstruct_object`. -/
def Effect.requested : Effect n → List ObjectID
  | .plasmaFetch objectIds => objectIds
  | .reconstructObject objectId => [objectId]
  | _ => []

/-- Every object the calls ask the store for is asked for while the store is `connected`, and
has a dependent in the table `R`. -/
def RequestsAwaited (connected : Bool) (R : List (ObjectID × List Nat)) (calls : List (Effect n)) :
    Prop :=
  ∀ e ∈ calls, ∀ o ∈ e.requested, connected = true ∧ dependentsIn R o ≠ []

namespace RequestsAwaited

variable {b : Bool} {R R' : List (ObjectID × List Nat)} {calls calls' : List (Effect n)}

theorem nil : RequestsAwaited b R ([] : List (Effect n)) :=
  fun _ he => absurd he (List.not_mem_nil _)

theorem of_requested (h : ∀ e ∈ calls, e.requested = []) : RequestsAwaited b R calls :=
  fun e he o ho => absurd (h e he ▸ ho) (List.not_mem_nil o)

theorem append (h : RequestsAwaited b R calls) (h' : RequestsAwaited b R calls') :
    RequestsAwaited b R (calls ++ calls') :=
  fun e he => (List.mem_append.1 he).elim (h e) (h' e)

/-- A table that only appends dependents keeps every awaited object awaited. -/
theorem mono (h : RequestsAwaited b R calls) (hR : ∀ o, dependentsIn R o <+: dependentsIn R' o) :
    RequestsAwaited b R' calls := fun e he o ho =>
  ⟨(h e he o ho).1, fun h' => (h e he o ho).2 (List.prefix_nil.1 (h' ▸ hR o))⟩

end RequestsAwaited

/-! ## The regular path: registering and fetching -/

section Fetches

variable {s : LocalSchedulerState n} {r : LocalSchedulerState n × List (Effect n)}
  {spec : TaskSpec n} {size : Int} {g : Bool}

/-- `fetch_missing_dependency` fetches only the object it has just registered the cursor with,
and only while the store is connected. -/
theorem fetchMissingDependency_requestsAwaited (s : LocalSchedulerState n) (c : Nat) (o : ObjectID) :
    RequestsAwaited s.plasmaConnected (fetchMissingDependency s c o).1.algorithmState.remoteObjects
      (fetchMissingDependency s c o).2 := by
  intro e he o' ho'
  dsimp only [fetchMissingDependency] at he
  split at he
  · rename_i hf
    rw [List.mem_singleton.1 he, Effect.requested, List.mem_singleton] at ho'
    subst ho'
    rw [dependentsIn_fetchMissingDependency, if_pos rfl]
    exact ⟨(Bool.and_eq_true _ _ ▸ hf).2, by simp⟩
  · exact absurd he (List.not_mem_nil _)

theorem dependentsIn_fetchArgs_grows (wanted : ObjectID → Bool) (c : Nat) (args : List TaskArg)
    (s : LocalSchedulerState n) (o : ObjectID) :
    dependentsIn s.algorithmState.remoteObjects o <+:
      dependentsIn (fetchArgs wanted c args s).1.algorithmState.remoteObjects o := by
  rw [dependentsIn_fetchArgs]
  split
  · exact List.prefix_append _ _
  · exact List.prefix_refl _

theorem fetchArgs_requestsAwaited (wanted : ObjectID → Bool) (c : Nat) :
    ∀ (args : List TaskArg) (s : LocalSchedulerState n),
      RequestsAwaited s.plasmaConnected (fetchArgs wanted c args s).1.algorithmState.remoteObjects
        (fetchArgs wanted c args s).2
  | [], _ => .nil
  | .byValue :: args, s => fetchArgs_requestsAwaited wanted c args s
  | .byRef o :: args, s => by
    unfold fetchArgs
    split
    · exact ((fetchMissingDependency_requestsAwaited s c o).mono
        (dependentsIn_fetchArgs_grows wanted c args _)).append (fetchArgs_requestsAwaited wanted c args _)
    · exact fetchArgs_requestsAwaited wanted c args s

theorem dependentsIn_refetchRemoved_grows (o : ObjectID) (W : List (Nat × TaskQueueEntry n))
    (s : LocalSchedulerState n) (o' : ObjectID) :
    dependentsIn s.algorithmState.remoteObjects o' <+:
      dependentsIn (refetchRemoved o W s).1.algorithmState.remoteObjects o' := by
  rw [dependentsIn_refetchRemoved]
  split
  · subst o'
    exact List.prefix_append _ _
  · exact List.prefix_refl _

/-- The loop over the waiting queue, for a state whose store flag is `b`. -/
theorem refetchRemoved_requestsAwaited (o : ObjectID) :
    ∀ (W : List (Nat × TaskQueueEntry n)) (s : LocalSchedulerState n) (b : Bool),
      s.plasmaConnected = b →
        RequestsAwaited b (refetchRemoved o W s).1.algorithmState.remoteObjects
          (refetchRemoved o W s).2
  | [], _, _, _ => .nil
  | (c, entry) :: rest, s, _, rfl =>
    ((fetchArgs_requestsAwaited _ c entry.spec.args s).mono
      (dependentsIn_refetchRemoved_grows o rest _)).append
      (refetchRemoved_requestsAwaited o rest _ _
        (fetchArgs_trackerStep _ c entry.spec.args s).queues.config.plasmaConnected)

theorem taskTableQueued_requested (s : LocalSchedulerState n) (spec : TaskSpec n) (size : Int)
    (g : Bool) : ∀ e ∈ taskTableQueued s spec size g, e.requested = [] := by
  unfold taskTableQueued
  split
  · exact fun _ he => absurd he (List.not_mem_nil _)
  · intro e he
    rw [List.mem_singleton.1 he]
    cases g <;> rfl

theorem queueWaitingTask_requestsAwaited (h : queueWaitingTask s spec size g = some r) :
    RequestsAwaited s.plasmaConnected r.1.algorithmState.remoteObjects r.2 := by
  simp only [queueWaitingTask, fetchMissingDependencies, check_bind, Option.bind_eq_bind,
    Option.bind_eq_some, Option.pure_def, Option.ite_none_right_eq_some, Option.some.injEq] at h
  obtain ⟨_, ⟨-, rfl⟩, rfl⟩ := h
  exact (RequestsAwaited.of_requested (taskTableQueued_requested s spec size g)).append
    (fetchArgs_requestsAwaited _ _ spec.args _)

theorem queueTaskLocally_requestsAwaited (h : queueTaskLocally s spec size g = some r) :
    RequestsAwaited s.plasmaConnected r.1.algorithmState.remoteObjects r.2 := by
  unfold queueTaskLocally at h
  split at h
  · cases h
    exact .of_requested (taskTableQueued_requested s spec size g)
  · exact queueWaitingTask_requestsAwaited h

theorem giveTaskToGlobalScheduler_requestsAwaited (h : giveTaskToGlobalScheduler s spec size = some r) :
    RequestsAwaited s.plasmaConnected r.1.algorithmState.remoteObjects r.2 := by
  unfold giveTaskToGlobalScheduler at h
  split at h
  · exact queueTaskLocally_requestsAwaited h
  · cases h
    exact .of_requested fun e he => by rw [List.mem_singleton.1 he]; rfl

theorem dispatchTasksLoop_requested :
    ∀ (q : List (TaskQueueEntry n)) (s : LocalSchedulerState n),
      ∀ e ∈ (dispatchTasksLoop q s).2.2, e.requested = []
  | [], _, _, he => absurd he (List.not_mem_nil _)
  | task :: rest, s, e, he => by
    unfold dispatchTasksLoop at he
    split at he
    · split at he
      · rw [List.mem_singleton.1 he]
        rfl
      · exact absurd he (List.not_mem_nil _)
    · split at he
      · exact absurd he (List.not_mem_nil _)
      split at he
      · exact dispatchTasksLoop_requested rest s e he
      · rcases List.mem_cons.1 he with rfl | he
        · rfl
        · exact dispatchTasksLoop_requested rest _ e he

/-- `dispatch_tasks` asks the store for nothing and leaves `remote_objects` alone. -/
theorem RequestsAwaited.dispatchTasks {q : LocalSchedulerState n × List (Effect n)} {b : Bool}
    (hq : RequestsAwaited b q.1.algorithmState.remoteObjects q.2) :
    RequestsAwaited b (LocalScheduler.dispatchTasks q.1).1.algorithmState.remoteObjects
      (q.2 ++ (LocalScheduler.dispatchTasks q.1).2) := by
  rw [dispatchTasks_remoteObjects]
  exact hq.append (.of_requested (dispatchTasksLoop_requested _ _))

theorem handleTaskSubmitted_requestsAwaited (h : handleTaskSubmitted s spec size = some r) :
    RequestsAwaited s.plasmaConnected r.1.algorithmState.remoteObjects r.2 := by
  simp only [handleTaskSubmitted, Option.bind_eq_bind, Option.bind_eq_some, Option.pure_def,
    Option.some.injEq] at h
  obtain ⟨q, hq, rfl⟩ := h
  refine RequestsAwaited.dispatchTasks ?_
  split at hq
  · cases hq
    exact .of_requested (taskTableQueued_requested s spec size false)
  · exact giveTaskToGlobalScheduler_requestsAwaited hq

theorem handleTaskScheduled_requestsAwaited (h : handleTaskScheduled s spec size = some r) :
    RequestsAwaited s.plasmaConnected r.1.algorithmState.remoteObjects r.2 := by
  simp only [handleTaskScheduled, check_bind, Option.bind_eq_bind, Option.bind_eq_some,
    Option.pure_def, Option.some.injEq, Option.ite_none_right_eq_some] at h
  obtain ⟨-, -, q, hq, rfl⟩ := h
  exact (queueTaskLocally_requestsAwaited hq).dispatchTasks

/-- `handle_object_removed` fetches the removed object again, for the waiting tasks that
use it. -/
theorem handleObjectRemoved_requestsAwaited {o : ObjectID} (h : handleObjectRemoved s o = some r) :
    RequestsAwaited s.plasmaConnected r.1.algorithmState.remoteObjects r.2 := by
  simp only [handleObjectRemoved, check_bind, Option.pure_def, Option.ite_none_right_eq_some,
    Option.some.injEq] at h
  obtain ⟨-, rfl⟩ := h
  exact refetchRemoved_requestsAwaited o _ _ _
    (requeueDependentTasks_queuesStep o _ _).config.plasmaConnected

/-- The timeout asks for exactly the keys of `remote_objects`, each of which has dependents. -/
theorem fetchObjectTimeoutHandler_requestsAwaited (hR : TableWF s.algorithmState.remoteObjects) :
    RequestsAwaited s.plasmaConnected s.algorithmState.remoteObjects (fetchObjectTimeoutHandler s) := by
  unfold fetchObjectTimeoutHandler
  split
  · rename_i hc
    intro e he o ho
    refine ⟨hc, hR.dependentsIn_ne_nil ?_⟩
    rcases List.mem_cons.1 he with rfl | he
    · exact ho
    · obtain ⟨p, hp, rfl⟩ := List.mem_map.1 he
      rw [List.mem_singleton.1 ho]
      exact List.mem_map_of_mem _ hp
  · exact .nil

end Fetches

/-! ## The actor path asks for nothing -/

section Actors

variable {s : LocalSchedulerState n} {r : LocalSchedulerState n × List (Effect n)}
  {spec : TaskSpec n} {size : Int} {A : ActorID} {w : LocalSchedulerClient}

theorem dispatchActorTask_requested {d : LocalSchedulerState n × List (Effect n) × Bool}
    (h : dispatchActorTask s A = some d) : ∀ e ∈ d.2.1, e.requested = [] := by
  obtain ⟨-, -, -, ⟨-, rfl⟩ | ⟨-, -, -, -, -, -, -, rfl⟩⟩ := dispatchActorTask_cases h
  · exact fun _ he => absurd he (List.not_mem_nil _)
  · intro e he
    rw [List.mem_singleton.1 he]
    rfl

theorem addTaskToActorQueue_requested {g : Bool} (h : addTaskToActorQueue s spec size g = some r) :
    ∀ e ∈ r.2, e.requested = [] := by
  simp only [addTaskToActorQueue, check_bind, Option.ite_none_right_eq_some, Option.bind_eq_bind,
    Option.bind_eq_some, Option.pure_def, Option.some.injEq] at h
  obtain ⟨-, _, -, -, -, -, rfl⟩ := h
  exact taskTableQueued_requested s spec size g

/-- Queueing an actor task and trying to dispatch it asks the store for nothing. -/
theorem queueActorTask_requested {g : Bool} {q : LocalSchedulerState n × List (Effect n)}
    {d : LocalSchedulerState n × List (Effect n) × Bool} (hq : addTaskToActorQueue s spec size g = some q)
    (hd : dispatchActorTask q.1 spec.actorId = some d) : ∀ e ∈ q.2 ++ d.2.1, e.requested = [] :=
  fun e he => (List.mem_append.1 he).elim (addTaskToActorQueue_requested hq e)
    (dispatchActorTask_requested hd e)

theorem handleActorTaskSubmitted_requested (h : handleActorTaskSubmitted s spec size = some r) :
    ∀ e ∈ r.2, e.requested = [] := by
  simp only [handleActorTaskSubmitted, check_bind, Option.ite_none_right_eq_some] at h
  obtain ⟨-, h⟩ := h
  split at h
  · cases h
    exact fun _ he => absurd he (List.not_mem_nil _)
  · simp only [Option.bind_eq_bind, Option.bind_eq_some] at h
    obtain ⟨d, -, h⟩ := h
    split at h
    · simp only [Option.bind_eq_bind, Option.bind_eq_some, Option.pure_def, Option.some.injEq] at h
      obtain ⟨q, hq, d', hd', rfl⟩ := h
      exact queueActorTask_requested hq hd'
    · rw [giveTaskToLocalScheduler_eq h]
      intro e he
      rw [List.mem_singleton.1 he]
      rfl

theorem replayCachedActorTasks_requested :
    ∀ (k i : Nat) (s : LocalSchedulerState n) (r : LocalSchedulerState n × List (Effect n)),
      replayCachedActorTasks k i s = some r → ∀ e ∈ r.2, e.requested = []
  | 0, _, _, _, h => by
    cases h
    exact fun _ he => absurd he (List.not_mem_nil _)
  | k + 1, i, s, r, h => by
    simp only [replayCachedActorTasks, Option.bind_eq_bind, Option.bind_eq_some, Option.pure_def,
      Option.some.injEq] at h
    obtain ⟨_, -, _, -, q, hq, q', hq', rfl⟩ := h
    exact fun e he => (List.mem_append.1 he).elim (handleActorTaskSubmitted_requested hq e)
      (replayCachedActorTasks_requested k (i + 1) q.1 q' hq' e)

theorem handleActorCreationNotification_requested (h : handleActorCreationNotification s A = some r) :
    ∀ e ∈ r.2, e.requested = [] := by
  simp only [handleActorCreationNotification, check_bind, Option.ite_none_right_eq_some,
    Option.bind_eq_bind, Option.bind_eq_some, Option.pure_def, Option.some.injEq] at h
  obtain ⟨-, q, hq, rfl⟩ := h
  exact replayCachedActorTasks_requested _ 0 s q hq

theorem handleActorTaskScheduled_requested (h : handleActorTaskScheduled s spec size = some r) :
    ∀ e ∈ r.2, e.requested = [] := by
  simp only [handleActorTaskScheduled, check_bind, Option.ite_none_right_eq_some,
    Option.bind_eq_bind, Option.bind_eq_some, Option.pure_def, Option.some.injEq] at h
  obtain ⟨-, -, -, -, q, hq, d, hd, rfl⟩ := h
  exact queueActorTask_requested hq hd

theorem handleActorWorkerAvailable_requested (h : handleActorWorkerAvailable s w = some r) :
    ∀ e ∈ r.2, e.requested = [] := by
  simp only [handleActorWorkerAvailable, check_bind, Option.ite_none_right_eq_some,
    Option.bind_eq_bind, Option.bind_eq_some, Option.pure_def, Option.some.injEq] at h
  obtain ⟨-, _, -, -, -, d, hd, rfl⟩ := h
  exact dispatchActorTask_requested hd

theorem handleActorWorkerConnect_requested (h : handleActorWorkerConnect s A w = some r) :
    ∀ e ∈ r.2, e.requested = [] := by
  simp only [handleActorWorkerConnect, Option.bind_eq_bind, Option.bind_eq_some, Option.pure_def,
    Option.some.injEq] at h
  obtain ⟨_, -, d, hd, rfl⟩ := h
  exact dispatchActorTask_requested hd

end Actors

/-! ## Every step -/

section Step

variable {s : LocalSchedulerState n} {e : Event n} {r : LocalSchedulerState n × List (Effect n)}

/-- Every step asks the store only for objects with dependents in the table it leaves, and only
while the store is connected. -/
theorem handleEvent_requestsAwaited (hR : TableWF s.algorithmState.remoteObjects)
    (h : handleEvent s e = some r) :
    RequestsAwaited s.plasmaConnected r.1.algorithmState.remoteObjects r.2 := by
  cases e with
  | taskSubmitted => exact handleTaskSubmitted_requestsAwaited h
  | actorTaskSubmitted => exact .of_requested (handleActorTaskSubmitted_requested h)
  | taskScheduled => exact handleTaskScheduled_requestsAwaited h
  | actorTaskScheduled => exact .of_requested (handleActorTaskScheduled_requested h)
  | actorCreationNotification A =>
    exact .of_requested (handleActorCreationNotification_requested (A := A) h)
  | workerAvailable =>
    obtain ⟨-, -, -, rfl⟩ := handleWorkerAvailable_eq_some.1 h
    exact .of_requested (dispatchTasksLoop_requested _ _)
  | workerRemoved =>
    obtain ⟨-, -, -, -, -, rfl⟩ := handleWorkerRemoved_eq_some.1 h
    exact .nil
  | workerBlocked =>
    obtain ⟨-, -, rfl⟩ := handleWorkerBlocked_eq_some.1 h
    exact .of_requested (dispatchTasksLoop_requested _ _)
  | workerUnblocked =>
    obtain ⟨-, -, rfl⟩ := handleWorkerUnblocked_eq_some.1 h
    exact .nil
  | actorWorkerAvailable => exact .of_requested (handleActorWorkerAvailable_requested h)
  | actorWorkerConnect => exact .of_requested (handleActorWorkerConnect_requested h)
  | actorWorkerDisconnect =>
    simp only [handleEvent, handleActorWorkerDisconnect, Option.bind_eq_bind, Option.bind_eq_some,
      Option.pure_def, Option.some.injEq] at h
    obtain ⟨-, -, rfl⟩ := h
    exact .nil
  | objectAvailable =>
    obtain ⟨s', -, ⟨rfl, -⟩ | rfl⟩ := handleObjectAvailable_shape h
    · exact .nil
    · exact .of_requested (dispatchTasksLoop_requested _ _)
  | objectRemoved => exact handleObjectRemoved_requestsAwaited h
  | driverRemoved =>
    simp only [handleEvent, handleDriverRemoved, Option.bind_eq_bind, Option.bind_eq_some,
      Option.pure_def, Option.some.injEq] at h
    obtain ⟨-, -, rfl⟩ := h
    exact .nil
  | fetchTimeout =>
    cases h
    exact fetchObjectTimeoutHandler_requestsAwaited hR
  | actorMappingAdded =>
    simp only [handleEvent, check_bind, Option.ite_none_right_eq_some, Option.pure_def,
      Option.some.injEq] at h
    obtain ⟨-, rfl⟩ := h
    exact .nil
  | plasmaConnection | childPids =>
    cases h
    exact .nil

end Step

/-- **The scheduler asks the object store only for objects it is waiting on.** From every
reachable state, each object a step asks to fetch or to reconstruct is asked for while the
object store is connected, and once the step is over it is not local and is an argument of a
task in the waiting queue. -/
theorem object_requests_awaited (s : LocalSchedulerState n) (hs : Reachable s) (e : Event n)
    (r : LocalSchedulerState n × List (Effect n)) (h : handleEvent s e = some r) :
    ∀ c ∈ r.2, ∀ o ∈ c.requested, s.plasmaConnected = true ∧
      r.1.algorithmState.localObjects o = false ∧
      ∃ p ∈ r.1.algorithmState.waitingTaskQueue, o ∈ p.2.spec.refIds := by
  intro c hc o ho
  obtain ⟨hb, hne⟩ := handleEvent_requestsAwaited (reachable_trackerInvariant hs).table h c hc o ho
  have hperm := (reachable_trackerInvariant (hs.step h)).dependents o
  cases hL : r.1.algorithmState.localObjects o
  · rw [hL, if_neg Bool.false_ne_true] at hperm
    have hE : expectedDependents r.1.algorithmState.waitingTaskQueue o ≠ [] :=
      fun hE => hne (hE ▸ hperm).eq_nil
    obtain ⟨c', hc'⟩ := List.exists_mem_of_ne_nil _ hE
    obtain ⟨p, hp, -, hop⟩ := mem_expectedDependents.1 hc'
    exact ⟨hb, rfl, p, hp, hop⟩
  · rw [hL, if_pos rfl] at hperm
    exact absurd hperm.eq_nil hne

theorem object_requests_awaited_twoArgs :
    ∃ r, handleEvent trackerNode (.taskScheduled twoArgTask 0 rfl) = some r ∧
      ∀ c ∈ r.2, ∀ o ∈ c.requested, trackerNode.plasmaConnected = true ∧
        r.1.algorithmState.localObjects o = false ∧
        ∃ p ∈ r.1.algorithmState.waitingTaskQueue, o ∈ p.2.spec.refIds :=
  ⟨_, rfl, object_requests_awaited trackerNode (.init rfl) (.taskScheduled twoArgTask 0 rfl) _ rfl⟩

/-- The step fetches both arguments of the task it queues. -/
example : (handleEvent trackerNode (.taskScheduled twoArgTask 0 rfl)).map
    (fun r => r.2.flatMap Effect.requested) = some [3, 4] := by
  decide

end LocalScheduler
