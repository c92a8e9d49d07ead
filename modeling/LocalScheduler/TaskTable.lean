import LocalScheduler.ActorNotifications
import LocalScheduler.Conservation

/-!
# The task table

Which handlers write which rows of the task table. A task that enters through
`handle_task_submitted` or `handle_actor_task_submitted` gets one `task_table_add_task` from
this scheduler, when it is queued here, handed to another local scheduler or handed to the
global scheduler, and none while it sits in the cached actor tasks, however often a
notification caches it again. A task that enters through `handle_task_scheduled` or
`handle_actor_task_scheduled` gets one `task_table_update` and no add.

* `handleEvent_tableStep` — one event: the rows it adds, with the pairs it leaves cached, are
  the pairs it submits with the pairs cached before; the rows it updates are the pairs it
  schedules.
* `task_table_writes` — over every run from a first state with a database, the rows added
  and the pairs still cached are, counted with multiplicity, the pairs submitted; the rows
  updated are the pairs scheduled, in order.
-/

namespace LocalScheduler

variable {n : Nat}

/-! ## Rows -/

/-- The `(spec, size)` of each `task_table_add_task` among the calls, in order. -/
def tableAdds (calls : List (Effect n)) : List (TaskSpec n × Int) :=
  calls.filterMap fun
    | .taskTableAddTask t => some (t.spec, t.taskSpecSize)
    | _ => none

/-- The `(spec, size)` of each `task_table_update` among the calls, in order. -/
def tableUpdates (calls : List (Effect n)) : List (TaskSpec n × Int) :=
  calls.filterMap fun
    | .taskTableUpdate t => some (t.spec, t.taskSpecSize)
    | _ => none

/-- A call that writes a row of the task table. -/
def Effect.writesTable : Effect n → Bool
  | .taskTableAddTask _ | .taskTableUpdate _ => true
  | _ => false

/-- The cached actor tasks with their sizes. -/
def cachedPairs (a : SchedulingAlgorithmState n) : List (TaskSpec n × Int) :=
  a.cachedSubmittedActorTasks.zip a.cachedSubmittedActorTaskSizes

/-- The pair an event submits to this scheduler, if it does. -/
def Event.submitted : Event n → List (TaskSpec n × Int)
  | .taskSubmitted spec size _ | .actorTaskSubmitted spec size => [(spec, size)]
  | _ => []

/-- The pair the global scheduler places here with an event, if it does. -/
def Event.scheduled : Event n → List (TaskSpec n × Int)
  | .taskScheduled spec size _ | .actorTaskScheduled spec size => [(spec, size)]
  | _ => []

@[simp] theorem tableAdds_append (c c' : List (Effect n)) :
    tableAdds (c ++ c') = tableAdds c ++ tableAdds c' :=
  List.filterMap_append _ _ _

@[simp] theorem tableUpdates_append (c c' : List (Effect n)) :
    tableUpdates (c ++ c') = tableUpdates c ++ tableUpdates c' :=
  List.filterMap_append _ _ _

/-- Calls that write no row add and update nothing. -/
theorem tableRows_eq_nil {calls : List (Effect n)} (h : ∀ e ∈ calls, e.writesTable = false) :
    tableAdds calls = [] ∧ tableUpdates calls = [] := by
  constructor <;> refine List.filterMap_eq_nil_iff.2 fun e he => ?_ <;> have hw := h e he <;>
    cases e <;> first | rfl | cases hw

/-! ## Calls that write no row -/

section Quiet

variable {s : LocalSchedulerState n}

theorem dispatchTasksLoop_writes :
    ∀ (q : List (TaskQueueEntry n)) (s : LocalSchedulerState n),
      ∀ e ∈ (dispatchTasksLoop q s).2.2, e.writesTable = false
  | [], _, _, he => absurd he (List.not_mem_nil _)
  | task :: rest, s, e, he => by
    unfold dispatchTasksLoop at he
    split at he
    · split at he
      · rw [List.mem_singleton.1 he]
        rfl
      · exact absurd he (List.not_mem_nil _)
    · split at he
      · exact absurd he (List.not_mem_nil _)
      split at he
      · exact dispatchTasksLoop_writes rest s e he
      · rcases List.mem_cons.1 he with rfl | he
        · rfl
        · exact dispatchTasksLoop_writes rest _ e he

/-- `dispatch_tasks` only assigns tasks and asks for workers. -/
theorem dispatchTasks_writes (s : LocalSchedulerState n) :
    ∀ e ∈ (dispatchTasks s).2, e.writesTable = false :=
  dispatchTasksLoop_writes _ s

theorem fetchArgs_writes (wanted : ObjectID → Bool) (c : Nat) (args : List TaskArg)
    (s : LocalSchedulerState n) : ∀ e ∈ (fetchArgs wanted c args s).2, e.writesTable = false :=
  fun e he => by
    obtain ⟨o, -, rfl⟩ := fetchArgs_calls wanted c args s e he
    rfl

theorem refetchRemoved_writes (o : ObjectID) (W : List (Nat × TaskQueueEntry n))
    (s : LocalSchedulerState n) : ∀ e ∈ (refetchRemoved o W s).2, e.writesTable = false :=
  fun e he => by
    rw [refetchRemoved_calls o W s e he]
    rfl

theorem dispatchActorTask_writes {A : ActorID}
    {r : LocalSchedulerState n × List (Effect n) × Bool} (h : dispatchActorTask s A = some r) :
    ∀ e ∈ r.2.1, e.writesTable = false := by
  obtain ⟨-, -, -, ⟨-, rfl⟩ | ⟨-, -, -, -, -, -, -, rfl⟩⟩ := dispatchActorTask_cases h
  · exact fun _ he => absurd he (List.not_mem_nil _)
  · intro e he
    rw [List.mem_singleton.1 he]
    rfl

theorem fetchObjectTimeoutHandler_writes (s : LocalSchedulerState n) :
    ∀ e ∈ fetchObjectTimeoutHandler s, e.writesTable = false := by
  unfold fetchObjectTimeoutHandler
  split
  · intro e he
    rcases List.mem_cons.1 he with rfl | he
    · rfl
    · obtain ⟨p, -, rfl⟩ := List.mem_map.1 he
      rfl
  · exact List.forall_mem_nil _

end Quiet

/-! ## One handler -/

/-- The two cached arrays have the same length. -/
def CacheAligned (a : SchedulingAlgorithmState n) : Prop :=
  a.cachedSubmittedActorTasks.length = a.cachedSubmittedActorTaskSizes.length

/-- What one handler does to the task table and to the cached actor tasks: the rows it adds,
with the pairs it leaves cached, are `submitted` with the pairs cached before; the rows it
updates are `scheduled`; the arrays stay aligned and the database stays. -/
structure TableStep (submitted scheduled : List (TaskSpec n × Int)) (s : LocalSchedulerState n)
    (r : LocalSchedulerState n × List (Effect n)) : Prop where
  adds : List.Perm (tableAdds r.2 ++ cachedPairs r.1.algorithmState)
    (submitted ++ cachedPairs s.algorithmState)
  updates : tableUpdates r.2 = scheduled
  aligned : CacheAligned r.1.algorithmState
  db : r.1.db = s.db

/-- Appending pairs to aligned arrays appends them to the cached pairs. -/
theorem cachedPairs_appendCached {a a' : SchedulingAlgorithmState n} {ps : List (TaskSpec n × Int)}
    (ha : CacheAligned a) (h : a'.cachedArrays = appendCached a.cachedArrays ps) :
    cachedPairs a' = cachedPairs a ++ ps ∧ CacheAligned a' := by
  simp only [SchedulingAlgorithmState.cachedArrays, appendCached, Prod.mk.injEq] at h
  refine ⟨?_, ?_⟩
  · rw [cachedPairs, h.1, h.2, List.zip_append ha, ← List.zip_of_prod rfl rfl]
    rfl
  · simp only [CacheAligned, h.1, h.2, List.length_append, List.length_map]
    exact congrArg (· + ps.length) ha

/-- The pairs a predicate rejects, then the cached pairs and those it keeps, are the pairs and
the cached pairs. -/
theorem perm_filter_not_append (p : TaskSpec n × Int → Bool) (ps C : List (TaskSpec n × Int)) :
    List.Perm (ps.filter (fun x => !p x) ++ (C ++ ps.filter p)) (ps ++ C) :=
  (List.perm_append_comm_assoc _ _ _).trans <| (List.Perm.append_left C
    (List.perm_append_comm.trans (List.filter_append_perm p ps))).trans List.perm_append_comm

section Steps

variable {s : LocalSchedulerState n} {q r : LocalSchedulerState n × List (Effect n)}
  {sub sch sub' sch' : List (TaskSpec n × Int)}

theorem TableStep.trans (h : TableStep sub sch s q) (h' : TableStep sub' sch' q.1 r) :
    TableStep (sub ++ sub') (sch ++ sch') s (r.1, q.2 ++ r.2) where
  adds := by
    simp only [tableAdds_append, List.append_assoc]
    exact (h'.adds.append_left _).trans <| (List.perm_append_comm_assoc _ _ _).trans <|
      (h.adds.append_left _).trans (List.perm_append_comm_assoc _ _ _)
  updates := by simp only [tableUpdates_append, h.updates, h'.updates]
  aligned := h'.aligned
  db := h'.db.trans h.db

/-- A handler that keeps the cached arrays and the database. -/
theorem TableStep.ofCached (hs : CacheAligned s.algorithmState)
    (hc : r.1.algorithmState.cachedArrays = s.algorithmState.cachedArrays)
    (ha : tableAdds r.2 = sub) (hu : tableUpdates r.2 = sch) (hdb : r.1.db = s.db) :
    TableStep sub sch s r := by
  have hp := cachedPairs_appendCached hs (hc.trans (appendCached_nil _).symm)
  refine ⟨?_, hu, hp.2, hdb⟩
  rw [ha, hp.1, List.append_nil]

/-- A handler that keeps the cached arrays and the database and writes no row. -/
theorem TableStep.quiet (hs : CacheAligned s.algorithmState)
    (hc : r.1.algorithmState.cachedArrays = s.algorithmState.cachedArrays)
    (hw : ∀ e ∈ r.2, e.writesTable = false) (hdb : r.1.db = s.db) : TableStep [] [] s r :=
  TableStep.ofCached hs hc (tableRows_eq_nil hw).1 (tableRows_eq_nil hw).2 hdb

theorem TableStep.dispatch (h : TableStep sub sch s q) :
    TableStep sub sch s ((dispatchTasks q.1).1, q.2 ++ (dispatchTasks q.1).2) := by
  simpa using h.trans (TableStep.quiet h.aligned (by
    simp [SchedulingAlgorithmState.cachedArrays]) (dispatchTasks_writes q.1) (dispatchTasks_db q.1))

/-- A tracker step keeps the cached arrays and the database. -/
theorem TrackerStep.tableStep (hs : CacheAligned s.algorithmState) (h : TrackerStep s q)
    (ha : tableAdds q.2 = sub) (hu : tableUpdates q.2 = sch) : TableStep sub sch s q :=
  TableStep.ofCached hs (by
    simp only [SchedulingAlgorithmState.cachedArrays, h.queues.actors.cached,
      h.queues.actors.cachedSizes]) ha hu h.queues.config.db

/-- A step that only moves workers between pools, from a state with the algorithm state and
the database of `s`, keeps the cached arrays and the database. -/
theorem LocalSchedulerState.PoolsStep.tableStep {s' : LocalSchedulerState n}
    (h : LocalSchedulerState.PoolsStep s' q.1) (hs : CacheAligned s.algorithmState)
    (ha : s'.algorithmState = s.algorithmState) (hdb : s'.db = s.db)
    (hw : ∀ e ∈ q.2, e.writesTable = false) : TableStep [] [] s q :=
  TableStep.quiet hs (by
    simp only [SchedulingAlgorithmState.cachedArrays, h.actors.cached, h.actors.cachedSizes, ha])
    hw (h.config.db.trans hdb)

end Steps

/-! ## The handlers that write rows -/

section Rows

variable {s : LocalSchedulerState n} {spec : TaskSpec n} {size : Int}
  {q r : LocalSchedulerState n × List (Effect n)}

/-- With a database, `queue_task` writes one row: an update when the global scheduler wrote
the row already, an add otherwise. -/
theorem taskTableQueued_rows (hdb : s.db.isSome) (spec : TaskSpec n) (size : Int) (g : Bool) :
    tableAdds (taskTableQueued s spec size g) = (if g then [] else [(spec, size)]) ∧
      tableUpdates (taskTableQueued s spec size g) = (if g then [(spec, size)] else []) := by
  obtain ⟨id, hid⟩ := Option.isSome_iff_exists.1 hdb
  cases g <;> simp [taskTableQueued, hid, tableAdds, tableUpdates]

theorem queueTaskLocally_rows (hdb : s.db.isSome) {g : Bool}
    (h : queueTaskLocally s spec size g = some q) :
    tableAdds q.2 = (if g then [] else [(spec, size)]) ∧
      tableUpdates q.2 = (if g then [(spec, size)] else []) := by
  unfold queueTaskLocally at h
  split at h
  · cases h
    exact taskTableQueued_rows hdb spec size g
  · simp only [queueWaitingTask, Option.bind_eq_bind, Option.bind_eq_some, Option.pure_def,
      Option.some.injEq] at h
    obtain ⟨f, hf, rfl⟩ := h
    obtain ⟨-, rfl⟩ := fetchMissingDependencies_eq hf
    rw [tableAdds_append, tableUpdates_append, (tableRows_eq_nil (fetchArgs_writes _ _ _ _)).1,
      (tableRows_eq_nil (fetchArgs_writes _ _ _ _)).2, List.append_nil, List.append_nil]
    exact taskTableQueued_rows hdb spec size g

theorem addTaskToActorQueue_calls {g : Bool} (h : addTaskToActorQueue s spec size g = some q) :
    q.2 = taskTableQueued s spec size g := by
  simp only [addTaskToActorQueue, check_bind, Option.ite_none_right_eq_some, Option.bind_eq_bind,
    Option.bind_eq_some, Option.pure_def, Option.some.injEq] at h
  obtain ⟨-, a, -, -, -, -, rfl⟩ := h
  rfl

/-- `handle_task_submitted` adds one row, whichever way the task goes. -/
theorem handleTaskSubmitted_tableStep (hs : CacheAligned s.algorithmState) (hdb : s.db.isSome)
    (h : handleTaskSubmitted s spec size = some r) : TableStep [(spec, size)] [] s r := by
  simp only [handleTaskSubmitted, Option.bind_eq_bind, Option.bind_eq_some, Option.pure_def,
    Option.some.injEq] at h
  obtain ⟨q, hq, rfl⟩ := h
  refine TableStep.dispatch ?_
  split at hq
  · cases hq
    obtain ⟨ha, hu⟩ := taskTableQueued_rows hdb spec size false
    exact (queueDispatchTask_trackerStep s spec size false).tableStep hs ha hu
  · have hstep := giveTaskToGlobalScheduler_trackerStep hq
    unfold giveTaskToGlobalScheduler at hq
    split at hq
    · obtain ⟨ha, hu⟩ := queueTaskLocally_rows hdb hq
      exact hstep.tableStep hs ha hu
    · cases hq
      exact hstep.tableStep hs rfl rfl

/-- `handle_task_scheduled` updates one row and adds none. -/
theorem handleTaskScheduled_tableStep (hs : CacheAligned s.algorithmState)
    (h : handleTaskScheduled s spec size = some r) : TableStep [] [(spec, size)] s r := by
  simp only [handleTaskScheduled, check_bind, Option.ite_none_right_eq_some, Option.bind_eq_bind,
    Option.bind_eq_some, Option.pure_def, Option.some.injEq] at h
  obtain ⟨hdb, -, q, hq, rfl⟩ := h
  obtain ⟨ha, hu⟩ := queueTaskLocally_rows hdb hq
  exact ((queueTaskLocally_trackerStep hq).tableStep hs ha hu).dispatch

/-- `handle_actor_task_submitted` adds one row unless it caches the task. -/
theorem handleActorTaskSubmitted_rows (hdb : s.db.isSome)
    (h : handleActorTaskSubmitted s spec size = some r) :
    tableAdds r.2 = [(spec, size)].filter (fun p => !(s.actorMapping p.1.actorId).isNone) ∧
      tableUpdates r.2 = [] := by
  simp only [handleActorTaskSubmitted, check_bind, Option.ite_none_right_eq_some] at h
  obtain ⟨-, h⟩ := h
  split at h
  · rename_i hm
    cases h
    simp [hm, tableAdds, tableUpdates]
  · rename_i B hm
    simp only [List.filter_singleton, hm, Option.isNone_some, Bool.not_false, cond_true]
    simp only [Option.bind_eq_bind, Option.bind_eq_some] at h
    obtain ⟨db, -, h⟩ := h
    split at h
    · simp only [Option.bind_eq_bind, Option.bind_eq_some, Option.pure_def,
        Option.some.injEq] at h
      obtain ⟨q, hq, d, hd, rfl⟩ := h
      obtain ⟨ha, hu⟩ := tableRows_eq_nil (dispatchActorTask_writes hd)
      obtain ⟨ha', hu'⟩ := taskTableQueued_rows hdb spec size false
      simp only [tableAdds_append, tableUpdates_append, addTaskToActorQueue_calls hq, ha, hu, ha',
        hu']
      exact ⟨rfl, rfl⟩
    · rw [giveTaskToLocalScheduler_eq h]
      exact ⟨rfl, rfl⟩

theorem handleActorTaskSubmitted_tableStep (hs : CacheAligned s.algorithmState)
    (hdb : s.db.isSome) (h : handleActorTaskSubmitted s spec size = some r) :
    TableStep [(spec, size)] [] s r := by
  obtain ⟨-, -, hc⟩ := handleActorTaskSubmitted_cachedArrays h
  obtain ⟨hp, hal⟩ := cachedPairs_appendCached hs hc
  obtain ⟨ha, hu⟩ := handleActorTaskSubmitted_rows hdb h
  refine ⟨?_, hu, hal, (handleActorTaskSubmitted_actorPathStep h).frame.config.db⟩
  rw [ha, hp]
  exact perm_filter_not_append _ _ _

/-- `handle_actor_task_scheduled` updates one row and adds none. -/
theorem handleActorTaskScheduled_tableStep (hs : CacheAligned s.algorithmState)
    (h : handleActorTaskScheduled s spec size = some r) : TableStep [] [(spec, size)] s r := by
  have hdb' := (handleActorTaskScheduled_dispatchesAfter h).actorPathStep.frame.config.db
  simp only [handleActorTaskScheduled, check_bind, Option.ite_none_right_eq_some,
    Option.bind_eq_bind, Option.bind_eq_some, Option.pure_def, Option.some.injEq] at h
  obtain ⟨hdb, -, -, -, q, hq, d, hd, rfl⟩ := h
  obtain ⟨ha, hu⟩ := tableRows_eq_nil (dispatchActorTask_writes hd)
  obtain ⟨ha', hu'⟩ := taskTableQueued_rows hdb spec size true
  refine TableStep.ofCached hs
    ((dispatchActorTask_cachedArrays hd).trans (addTaskToActorQueue_cachedArrays hq)) ?_ ?_ hdb'
  · simp only [tableAdds_append, addTaskToActorQueue_calls hq, ha, ha']
    rfl
  · simp only [tableUpdates_append, addTaskToActorQueue_calls hq, hu, hu']
    rfl

/-- Submitting pairs adds a row for each pair whose actor has a location, in order, and
updates none. -/
theorem submitActorTasks_rows :
    ∀ (ps : List (TaskSpec n × Int)) (s : LocalSchedulerState n)
      (r : LocalSchedulerState n × List (Effect n)), s.db.isSome →
        submitActorTasks ps s = some r →
        tableAdds r.2 = ps.filter (fun p => !(s.actorMapping p.1.actorId).isNone) ∧
          tableUpdates r.2 = []
  | [], s, r, _, h => by
    cases h
    exact ⟨rfl, rfl⟩
  | (spec, size) :: rest, s, r, hdb, h => by
    simp only [submitActorTasks, Option.bind_eq_bind, Option.bind_eq_some, Option.pure_def,
      Option.some.injEq] at h
    obtain ⟨q, hq, q', hq', rfl⟩ := h
    obtain ⟨-, hmap, -⟩ := handleActorTaskSubmitted_cachedArrays hq
    obtain ⟨ha, hu⟩ := handleActorTaskSubmitted_rows hdb hq
    obtain ⟨ha', hu'⟩ := submitActorTasks_rows rest q.1 q'
      ((handleActorTaskSubmitted_actorPathStep hq).frame.config.db ▸ hdb) hq'
    rw [hmap] at ha'
    rw [tableAdds_append, tableUpdates_append, ha, hu, ha', hu', ← List.filter_append]
    exact ⟨rfl, rfl⟩

/-- The creation notification adds a row for each cached pair whose actor has a location, and
keeps the others cached. -/
theorem handleActorCreationNotification_tableStep {A : ActorID}
    (hs : CacheAligned s.algorithmState) (hdb : s.db.isSome)
    (h : handleActorCreationNotification s A = some r) : TableStep [] [] s r := by
  have hdb' := (handleActorCreationNotification_actorPathStep h).frame.config.db
  obtain ⟨r₀, hr₀, -, -, rfl⟩ := handleActorCreationNotification_some hs h
  obtain ⟨ha, hu⟩ := submitActorTasks_rows _ s r₀ hdb hr₀
  refine ⟨?_, hu, ?_, hdb'⟩
  · rw [ha, cachedPairs, ← List.zip_of_prod rfl rfl]
    simpa only [List.append_nil, List.nil_append] using perm_filter_not_append _ _ []
  · simp only [CacheAligned, List.length_map]

end Rows

/-! ## The handlers that write no row -/

section Quiet

variable {s : LocalSchedulerState n} {r : LocalSchedulerState n × List (Effect n)}

theorem handleActorWorkerAvailable_tableStep {w : LocalSchedulerClient}
    (hs : CacheAligned s.algorithmState) (h : handleActorWorkerAvailable s w = some r) :
    TableStep [] [] s r := by
  simp only [handleActorWorkerAvailable, check_bind, Option.ite_none_right_eq_some,
    Option.bind_eq_bind, Option.bind_eq_some, Option.pure_def, Option.some.injEq] at h
  obtain ⟨-, entry, -, -, -, d, hd, rfl⟩ := h
  exact TableStep.quiet hs ((dispatchActorTask_cachedArrays hd).trans rfl)
    (dispatchActorTask_writes hd) (dispatchActorTask_actorPathStep hd).frame.config.db

theorem handleActorWorkerConnect_tableStep {A : ActorID} {w : LocalSchedulerClient}
    (hs : CacheAligned s.algorithmState) (h : handleActorWorkerConnect s A w = some r) :
    TableStep [] [] s r := by
  simp only [handleActorWorkerConnect, Option.bind_eq_bind, Option.bind_eq_some, Option.pure_def,
    Option.some.injEq] at h
  obtain ⟨a, ha, d, hd, rfl⟩ := h
  have hc : a.cachedArrays = s.algorithmState.cachedArrays := by
    split at ha
    · simp only [createActor, check_bind, Option.ite_none_right_eq_some, Option.pure_def,
        Option.some.injEq] at ha
      obtain ⟨-, rfl⟩ := ha
      rfl
    · cases ha
      rfl
  exact TableStep.quiet hs ((dispatchActorTask_cachedArrays hd).trans hc)
    (dispatchActorTask_writes hd) (dispatchActorTask_actorPathStep hd).frame.config.db

theorem handleActorWorkerDisconnect_tableStep {A : ActorID}
    (hs : CacheAligned s.algorithmState) (h : handleActorWorkerDisconnect s A = some r) :
    TableStep [] [] s r := by
  simp only [handleActorWorkerDisconnect, removeActor, check_bind, Option.ite_none_right_eq_some,
    Option.bind_eq_bind, Option.bind_eq_some, Option.pure_def, Option.some.injEq] at h
  obtain ⟨a, ⟨-, rfl⟩, rfl⟩ := h
  exact TableStep.quiet hs rfl (List.forall_mem_nil _) rfl

end Quiet

/-! ## Events and runs -/

section Runs

variable {s : LocalSchedulerState n} {r : LocalSchedulerState n × List (Effect n)}

/-- One event, with a database and aligned cached arrays: the rows its handler adds, with the
pairs it leaves cached, are the pair the event submits with the pairs cached before; the rows it
updates are the pair the event schedules. -/
theorem handleEvent_tableStep {e : Event n} (hs : CacheAligned s.algorithmState)
    (hdb : s.db.isSome) (h : handleEvent s e = some r) :
    TableStep e.submitted e.scheduled s r := by
  cases e with
  | taskSubmitted spec size _ => exact handleTaskSubmitted_tableStep hs hdb h
  | actorTaskSubmitted spec size => exact handleActorTaskSubmitted_tableStep hs hdb h
  | taskScheduled spec size _ => exact handleTaskScheduled_tableStep hs h
  | actorTaskScheduled spec size => exact handleActorTaskScheduled_tableStep hs h
  | actorCreationNotification A => exact handleActorCreationNotification_tableStep (A := A) hs hdb h
  | workerAvailable w R _ =>
    obtain ⟨s₁, h₁, rfl⟩ := handleWorkerAvailable_poolsStep h
    exact (h₁.tableStep (q := (s₁, [])) hs rfl rfl (List.forall_mem_nil _)).dispatch
  | workerBlocked w R =>
    obtain ⟨s₁, h₁, rfl⟩ := handleWorkerBlocked_poolsStep h
    exact (h₁.tableStep (q := (s₁, [])) hs rfl rfl (List.forall_mem_nil _)).dispatch
  | workerRemoved w =>
    obtain ⟨h₁, h₂⟩ := handleWorkerRemoved_poolsStep h
    exact h₁.tableStep hs rfl rfl (h₂ ▸ List.forall_mem_nil _)
  | workerUnblocked w R =>
    obtain ⟨h₁, h₂⟩ := handleWorkerUnblocked_poolsStep h
    exact h₁.tableStep hs rfl rfl (h₂ ▸ List.forall_mem_nil _)
  | actorWorkerAvailable w => exact handleActorWorkerAvailable_tableStep hs h
  | actorWorkerConnect w => exact handleActorWorkerConnect_tableStep hs h
  | actorWorkerDisconnect A => exact handleActorWorkerDisconnect_tableStep hs h
  | objectAvailable o =>
    obtain ⟨s', hs', ⟨rfl, -⟩ | rfl⟩ := handleObjectAvailable_shape h
    · exact TrackerStep.tableStep hs ⟨hs', rfl⟩ rfl rfl
    · simpa using
        (TrackerStep.tableStep hs (⟨hs', rfl⟩ : TrackerStep s (s', [])) rfl rfl).dispatch
  | objectRemoved o =>
    have hstep := handleObjectRemoved_trackerStep h
    simp only [handleEvent, handleObjectRemoved, check_bind, Option.pure_def,
      Option.ite_none_right_eq_some, Option.some.injEq] at h
    obtain ⟨-, rfl⟩ := h
    exact hstep.tableStep hs (tableRows_eq_nil (refetchRemoved_writes _ _ _)).1
      (tableRows_eq_nil (refetchRemoved_writes _ _ _)).2
  | driverRemoved d =>
    have hstep := handleDriverRemoved_trackerStep h
    simp only [handleEvent, handleDriverRemoved, Option.bind_eq_bind, Option.bind_eq_some,
      Option.pure_def, Option.some.injEq] at h
    obtain ⟨R, -, rfl⟩ := h
    exact hstep.tableStep hs rfl rfl
  | fetchTimeout =>
    cases h
    exact (fetchObjectTimeoutHandler_trackerStep s).tableStep hs
      (tableRows_eq_nil (fetchObjectTimeoutHandler_writes s)).1
      (tableRows_eq_nil (fetchObjectTimeoutHandler_writes s)).2
  | actorMappingAdded A B =>
    simp only [handleEvent, check_bind, Option.ite_none_right_eq_some, Option.pure_def,
      Option.some.injEq] at h
    obtain ⟨-, rfl⟩ := h
    exact TableStep.quiet hs rfl (List.forall_mem_nil _) rfl
  | plasmaConnection c =>
    cases h
    exact TableStep.quiet hs rfl (List.forall_mem_nil _) rfl
  | childPids k =>
    cases h
    exact TableStep.quiet hs rfl (List.forall_mem_nil _) rfl

/-- Over a run, the rows added with the pairs cached at the end are the pairs submitted with
those cached at the start, and the rows updated are the pairs scheduled, in order. -/
theorem runEvents_tableStep :
    ∀ (es : List (Event n)) (s : LocalSchedulerState n)
      (r : LocalSchedulerState n × List (Observation n)), CacheAligned s.algorithmState →
        s.db.isSome → runEvents s es = some r →
          TableStep (es.flatMap Event.submitted) (es.flatMap Event.scheduled) s
            (r.1, traceCalls r.2)
  | [], s, r, hs, _, h => by
    cases h
    exact TableStep.quiet hs rfl (List.forall_mem_nil _) rfl
  | e :: es, s, r, hs, hdb, h => by
    simp only [runEvents, Option.bind_eq_bind, Option.bind_eq_some, Option.pure_def,
      Option.some.injEq] at h
    obtain ⟨q, hq, r', hr', rfl⟩ := h
    have h₁ := handleEvent_tableStep hs hdb hq
    have h₂ := runEvents_tableStep es q.1 r' h₁.aligned (h₁.db ▸ hdb) hr'
    rw [traceCalls_step]
    exact h₁.trans h₂

/-- **Task-table write discipline.** Over every run from a first state of a scheduler with a
database, the rows this scheduler adds to the task table, with the pairs still cached at the
end, are, counted with multiplicity, the pairs submitted through `handle_task_submitted` and
`handle_actor_task_submitted`: each submitted task is added once, whether it is queued here,
handed to another local scheduler or to the global scheduler, and never while it is cached,
however often a notification caches it again. The rows it updates are, in order, the pairs
placed here through `handle_task_scheduled` and `handle_actor_task_scheduled`, and none of
those is added. -/
theorem task_table_writes (s : LocalSchedulerState n)
    (hinit : s.algorithmState = SchedulingAlgorithmState.init n) (hdb : s.db.isSome)
    (es : List (Event n)) (r : LocalSchedulerState n × List (Observation n))
    (h : runEvents s es = some r) :
    List.Perm (tableAdds (traceCalls r.2) ++ cachedPairs r.1.algorithmState)
        (es.flatMap Event.submitted) ∧
      tableUpdates (traceCalls r.2) = es.flatMap Event.scheduled := by
  have hempty : cachedPairs s.algorithmState = [] := by
    rw [cachedPairs, hinit]
    rfl
  have ht := runEvents_tableStep es s r (by rw [CacheAligned, hinit]; rfl) hdb h
  have hadds := ht.adds
  rw [hempty, List.append_nil] at hadds
  exact ⟨hadds, ht.updates⟩

end Runs

/-- A task of driver `0` submitted with size `3`, a task of actor `5` submitted with size `7`
before the actor's location is known, the first task placed here again by the global scheduler
with size `4`, and then the notification that actor `5` lives here. -/
def tableEvents : List (Event 1) :=
  [.taskSubmitted twoArgTask 3 rfl, .actorTaskSubmitted cachedFiveTask 7,
    .taskScheduled twoArgTask 4 rfl, .actorMappingAdded 5 1, .actorCreationNotification 5]

/-- The end of that run. -/
def tableRun : LocalSchedulerState 1 × List (Observation 1) :=
  (runEvents trackerNode tableEvents).getD (trackerNode, [])

theorem runEvents_tableRun : runEvents trackerNode tableEvents = some tableRun :=
  rfl

/-- The regular task is added when it is handed to the global scheduler, the actor task when the
notification queues it; the placed task is updated. -/
example : (tableAdds (traceCalls tableRun.2)).map (·.2) = [3, 7] ∧
    (tableUpdates (traceCalls tableRun.2)).map (·.2) = [4] ∧
    (cachedPairs tableRun.1.algorithmState).map (·.2) = [] := by
  decide

theorem task_table_writes_tableRun :
    trackerNode.algorithmState = SchedulingAlgorithmState.init 1 ∧ trackerNode.db.isSome ∧
      runEvents trackerNode tableEvents = some tableRun ∧
      List.Perm (tableAdds (traceCalls tableRun.2) ++ cachedPairs tableRun.1.algorithmState)
        (tableEvents.flatMap Event.submitted) ∧
      tableUpdates (traceCalls tableRun.2) = tableEvents.flatMap Event.scheduled :=
  ⟨rfl, rfl, runEvents_tableRun,
    task_table_writes trackerNode rfl rfl tableEvents tableRun runEvents_tableRun⟩

end LocalScheduler
