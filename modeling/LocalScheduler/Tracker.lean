import LocalScheduler.Workers
import Mathlib.Logic.Function.Basic

/-!
# The dependency tracker and the regular task path

How a regular task enters the waiting or the dispatch queue, how the waiting queue's
cursors are registered with the objects a task misses, and the three handlers that move
tasks between the queues: `handle_object_available`, `handle_object_removed` and
`handle_driver_removed`.

The loops of the source are structural recursions here: `fetchArgs` is the argument loop
that `fetch_missing_dependencies` and `handle_object_removed` share (one definition, the
selected objects as its parameter); `moveDependentTasks`, `requeueDependentTasks`,
`refetchRemoved` and `purgeDriverTasks` are the other loops, in the order the source runs
them. Dereferencing a cursor whose node is no longer in the waiting queue is undefined
behaviour in the source; here it ends the run, like a failed `CHECK`.
-/

namespace LocalScheduler

variable {n : Nat}

/-! ## Objects and cursors -/

/-- `remote_objects[obj_id].dependent_tasks.push_back(c)`, on the entry the key names. -/
def pushDependent (table : List (ObjectID × List Nat)) (objectId : ObjectID) (c : Nat) :
    List (ObjectID × List Nat) :=
  table.map fun p => if p.1 = objectId then (p.1, p.2 ++ [c]) else p

/-- `fetch_missing_dependency`: register the waiting-queue cursor `c` as a dependent of the
object; the first time the object is missed, create its entry and try one fetch at once. -/
def fetchMissingDependency (s : LocalSchedulerState n) (c : Nat) (objectId : ObjectID) :
    LocalSchedulerState n × List (Effect n) :=
  let fresh := (s.algorithmState.remoteObjects.lookup objectId).isNone
  let table := if fresh then s.algorithmState.remoteObjects ++ [(objectId, [])]
    else s.algorithmState.remoteObjects
  ({ s with algorithmState.remoteObjects := pushDependent table objectId c },
    if fresh && s.plasmaConnected then [.plasmaFetch [objectId]] else [])

/-- The argument loop of `fetch_missing_dependencies` and of `handle_object_removed`: call
`fetch_missing_dependency(c, id)` for every by-reference argument whose id `wanted` selects,
in argument order. -/
def fetchArgs (wanted : ObjectID → Bool) (c : Nat) :
    List TaskArg → LocalSchedulerState n → LocalSchedulerState n × List (Effect n)
  | [], s => (s, [])
  | .byValue :: args, s => fetchArgs wanted c args s
  | .byRef objectId :: args, s =>
    if wanted objectId then
      let r := fetchMissingDependency s c objectId
      let r' := fetchArgs wanted c args r.1
      (r'.1, r.2 ++ r'.2)
    else fetchArgs wanted c args s

/-- `fetch_missing_dependencies`: register the cursor with every argument that is not local;
at least one must be missing. -/
def fetchMissingDependencies (s : LocalSchedulerState n) (c : Nat) (spec : TaskSpec n) :
    Option (LocalSchedulerState n × List (Effect n)) := do
  let r := fetchArgs (fun o => !s.algorithmState.localObjects o) c spec.args s
  check (0 < (spec.refIds.filter fun o => !s.algorithmState.localObjects o).length)
  pure r

/-- `can_run`: every by-reference argument is in `local_objects`. -/
def canRun (a : SchedulingAlgorithmState n) (spec : TaskSpec n) : Bool :=
  spec.refIds.all a.localObjects

/-! ## Queueing a task -/

/-- The task-table write of `queue_task` (and of `add_task_to_actor_queue`): a `QUEUED` row
for this scheduler, as an update when the global scheduler wrote the row already, as an
add otherwise, and nothing without a database. -/
def taskTableQueued (s : LocalSchedulerState n) (spec : TaskSpec n) (taskSpecSize : Int)
    (fromGlobalScheduler : Bool) : List (Effect n) :=
  match s.db with
  | none => []
  | some dbClientId =>
    let task : Task n := ⟨spec, taskSpecSize, .queued, dbClientId⟩
    [if fromGlobalScheduler then .taskTableUpdate task else .taskTableAddTask task]

/-- `queue_waiting_task`: a new entry (`TaskQueueEntry_init`) in a new node at the back of the
waiting queue, whose cursor is then registered with the missing arguments. -/
def queueWaitingTask (s : LocalSchedulerState n) (spec : TaskSpec n) (taskSpecSize : Int)
    (fromGlobalScheduler : Bool) : Option (LocalSchedulerState n × List (Effect n)) := do
  let entry : TaskQueueEntry n := ⟨s.nextAddress, spec, taskSpecSize⟩
  let c := s.nextAddress + 1
  let s' := { s with
    nextAddress := s.nextAddress + 2,
    algorithmState.waitingTaskQueue := s.algorithmState.waitingTaskQueue ++ [(c, entry)] }
  let r ← fetchMissingDependencies s' c spec
  pure (r.1, taskTableQueued s spec taskSpecSize fromGlobalScheduler ++ r.2)

/-- `queue_dispatch_task`: a new entry at the back of the dispatch queue. -/
def queueDispatchTask (s : LocalSchedulerState n) (spec : TaskSpec n) (taskSpecSize : Int)
    (fromGlobalScheduler : Bool) : LocalSchedulerState n × List (Effect n) :=
  ({ s with
    nextAddress := s.nextAddress + 1,
    algorithmState.dispatchTaskQueue :=
      s.algorithmState.dispatchTaskQueue ++ [⟨s.nextAddress, spec, taskSpecSize⟩] },
    taskTableQueued s spec taskSpecSize fromGlobalScheduler)

/-- `queue_task_locally`: the dispatch queue if the task can run, the waiting queue if not. -/
def queueTaskLocally (s : LocalSchedulerState n) (spec : TaskSpec n) (taskSpecSize : Int)
    (fromGlobalScheduler : Bool) : Option (LocalSchedulerState n × List (Effect n)) :=
  if canRun s.algorithmState spec then some (queueDispatchTask s spec taskSpecSize fromGlobalScheduler)
  else queueWaitingTask s spec taskSpecSize fromGlobalScheduler

/-- `give_task_to_local_scheduler`: a `SCHEDULED` row naming the other local scheduler. -/
def giveTaskToLocalScheduler (s : LocalSchedulerState n) (spec : TaskSpec n) (taskSpecSize : Int)
    (localSchedulerId : DBClientID) : Option (LocalSchedulerState n × List (Effect n)) := do
  check (s.db.isSome = true)
  check (s.globalSchedulerExists = true)
  pure (s, [.taskTableAddTask ⟨spec, taskSpecSize, .scheduled, localSchedulerId⟩])

/-- `give_task_to_global_scheduler`: a `WAITING` row for the global scheduler, or, without a
database or a global scheduler, the local queues. -/
def giveTaskToGlobalScheduler (s : LocalSchedulerState n) (spec : TaskSpec n) (taskSpecSize : Int) :
    Option (LocalSchedulerState n × List (Effect n)) :=
  if s.db.isNone || !s.globalSchedulerExists then queueTaskLocally s spec taskSpecSize false
  else some (s, [.taskTableAddTask ⟨spec, taskSpecSize, .waiting, nilId⟩])

/-- `resource_constraints_satisfied`: the task fits in both the static and the dynamic
resources. -/
def resourceConstraintsSatisfied (s : LocalSchedulerState n) (spec : TaskSpec n) : Bool :=
  decide (∀ i, spec.requiredResources i ≤ s.staticResources i ∧
    spec.requiredResources i ≤ s.dynamicResources i)

/-- `handle_task_submitted`: queue the task for dispatch when it fits, a worker is free and its
arguments are local; otherwise hand it to the global scheduler. Then dispatch. -/
def handleTaskSubmitted (s : LocalSchedulerState n) (spec : TaskSpec n) (taskSpecSize : Int) :
    Option (LocalSchedulerState n × List (Effect n)) := do
  let r ← (if resourceConstraintsSatisfied s spec && !s.algorithmState.availableWorkers.isEmpty &&
      canRun s.algorithmState spec then some (queueDispatchTask s spec taskSpecSize false)
    else giveTaskToGlobalScheduler s spec taskSpecSize)
  let d := dispatchTasks r.1
  pure (d.1, r.2 ++ d.2)

/-- `handle_task_scheduled`: the global scheduler placed the task here. -/
def handleTaskScheduled (s : LocalSchedulerState n) (spec : TaskSpec n) (taskSpecSize : Int) :
    Option (LocalSchedulerState n × List (Effect n)) := do
  check (s.db.isSome = true)
  check (s.globalSchedulerExists = true)
  let r ← queueTaskLocally s spec taskSpecSize true
  let d := dispatchTasks r.1
  pure (d.1, r.2 ++ d.2)

/-! ## Objects arriving and leaving -/

/-- The loop of `handle_object_available` over the object's dependent cursors: a task that can
run now moves to the back of the dispatch queue and its node leaves the waiting queue. The
node of a cursor is looked up first (`it->spec`): a cursor with no node is a fault. -/
def moveDependentTasks :
    List Nat → SchedulingAlgorithmState n → Option (SchedulingAlgorithmState n)
  | [], a => some a
  | c :: cs, a => do
    let entry ← a.waitingTaskQueue.lookup c
    if canRun a entry.spec then
      moveDependentTasks cs { a with
        dispatchTaskQueue := a.dispatchTaskQueue ++ [entry],
        waitingTaskQueue := a.waitingTaskQueue.filter fun p => p.1 ≠ c }
    else moveDependentTasks cs a

/-- `handle_object_available`: the object leaves `remote_objects` for `local_objects`, and the
tasks waiting on it that can now run move to the dispatch queue, which is then dispatched. -/
def handleObjectAvailable (s : LocalSchedulerState n) (objectId : ObjectID) :
    Option (LocalSchedulerState n × List (Effect n)) := do
  let dependents := (s.algorithmState.remoteObjects.lookup objectId).getD []
  check (s.algorithmState.localObjects objectId = false)
  let a := { s.algorithmState with
    remoteObjects := s.algorithmState.remoteObjects.filter fun p => p.1 ≠ objectId,
    localObjects := Function.update s.algorithmState.localObjects objectId true }
  if dependents.isEmpty then pure ({ s with algorithmState := a }, [])
  else do
    let a' ← moveDependentTasks dependents a
    pure (dispatchTasks { s with algorithmState := a' })

/-- The loop of `handle_object_removed` over the dispatch queue: a task that uses the removed
object goes, in a new node, to the back of the waiting queue; the others stay queued. -/
def requeueDependentTasks (objectId : ObjectID) :
    List (TaskQueueEntry n) → LocalSchedulerState n → LocalSchedulerState n × List (TaskQueueEntry n)
  | [], s => (s, [])
  | task :: rest, s =>
    if task.spec.isDependentOn objectId then
      requeueDependentTasks objectId rest { s with
        nextAddress := s.nextAddress + 1,
        algorithmState.waitingTaskQueue :=
          s.algorithmState.waitingTaskQueue ++ [(s.nextAddress, task)] }
    else
      let r := requeueDependentTasks objectId rest s
      (r.1, task :: r.2)

/-- The loop of `handle_object_removed` over the waiting queue: every by-reference use of the
removed object is registered again. -/
def refetchRemoved (objectId : ObjectID) :
    List (Nat × TaskQueueEntry n) → LocalSchedulerState n → LocalSchedulerState n × List (Effect n)
  | [], s => (s, [])
  | (c, entry) :: rest, s =>
    let r := fetchArgs (· = objectId) c entry.spec.args s
    let r' := refetchRemoved objectId rest r.1
    (r'.1, r.2 ++ r'.2)

/-- `handle_object_removed`: the object is no longer local; the dispatched tasks that use it
go back to waiting, and every waiting use of it is registered for a fetch. -/
def handleObjectRemoved (s : LocalSchedulerState n) (objectId : ObjectID) :
    Option (LocalSchedulerState n × List (Effect n)) := do
  check (s.algorithmState.localObjects objectId = true)
  let s₁ := { s with
    algorithmState.localObjects := Function.update s.algorithmState.localObjects objectId false }
  let r := requeueDependentTasks objectId s₁.algorithmState.dispatchTaskQueue s₁
  let s₂ := { r.1 with algorithmState.dispatchTaskQueue := r.2 }
  pure (refetchRemoved objectId s₂.algorithmState.waitingTaskQueue s₂)

/-! ## Removing a driver -/

/-- The inner loop of `handle_driver_removed`: drop the cursors whose task belongs to the
driver. Each cursor is dereferenced (`(*task_it_it)->spec`): one with no node is a fault. -/
def filterDependents (waiting : List (Nat × TaskQueueEntry n)) (driverId : WorkerID) :
    List Nat → Option (List Nat)
  | [] => some []
  | c :: cs => do
    let entry ← waiting.lookup c
    let rest ← filterDependents waiting driverId cs
    pure (if entry.spec.driverId = driverId then rest else c :: rest)

/-- The outer loop of `handle_driver_removed` over `remote_objects`: purge every entry, and
erase the entries left with no dependent. -/
def purgeDriverTasks (waiting : List (Nat × TaskQueueEntry n)) (driverId : WorkerID) :
    List (ObjectID × List Nat) → Option (List (ObjectID × List Nat))
  | [] => some []
  | (objectId, dependents) :: rest => do
    let kept ← filterDependents waiting driverId dependents
    let rest' ← purgeDriverTasks waiting driverId rest
    pure (if kept.isEmpty then rest' else (objectId, kept) :: rest')

/-- `handle_driver_removed`: purge the driver's cursors first, then its queued tasks. -/
def handleDriverRemoved (s : LocalSchedulerState n) (driverId : WorkerID) :
    Option (LocalSchedulerState n × List (Effect n)) := do
  let remote ← purgeDriverTasks s.algorithmState.waitingTaskQueue driverId
    s.algorithmState.remoteObjects
  pure ({ s with
    algorithmState.remoteObjects := remote,
    algorithmState.waitingTaskQueue :=
      s.algorithmState.waitingTaskQueue.filter fun p => p.2.spec.driverId ≠ driverId,
    algorithmState.dispatchTaskQueue :=
      s.algorithmState.dispatchTaskQueue.filter fun t => t.spec.driverId ≠ driverId }, [])

/-- `fetch_object_timeout_handler`: when the object store is connected, fetch every object of
`remote_objects` again and ask for each to be reconstructed. -/
def fetchObjectTimeoutHandler (s : LocalSchedulerState n) : List (Effect n) :=
  if s.plasmaConnected then
    .plasmaFetch (s.algorithmState.remoteObjects.map (·.1)) ::
      s.algorithmState.remoteObjects.map fun p => .reconstructObject p.1
  else []

/-! ## What the tracker's operations leave alone -/

open LocalSchedulerState

/-- One operation of the dependency tracker: it changes only the queues, the object tables and
the allocator, and it hands no task to a worker. -/
structure TrackerStep (s : LocalSchedulerState n) (r : LocalSchedulerState n × List (Effect n)) :
    Prop where
  queues : QueuesStep s r.1
  assignments_eq : assignments r.2 = []

section Frames

variable {s : LocalSchedulerState n} {r r' : LocalSchedulerState n × List (Effect n)}

theorem TrackerStep.rfl : TrackerStep s (s, []) := ⟨QueuesStep.rfl, Eq.refl _⟩

theorem TrackerStep.trans (h : TrackerStep s r) (h' : TrackerStep r.1 r') :
    TrackerStep s (r'.1, r.2 ++ r'.2) :=
  ⟨h.1.trans h'.1, by simp [h.2, h'.2]⟩

@[simp] theorem assignments_taskTableQueued (spec : TaskSpec n) (size : Int) (g : Bool) :
    assignments (taskTableQueued s spec size g) = [] := by
  unfold taskTableQueued
  split <;> (try cases g) <;> rfl

theorem fetchMissingDependency_trackerStep (s : LocalSchedulerState n) (c : Nat) (o : ObjectID) :
    TrackerStep s (fetchMissingDependency s c o) :=
  ⟨QueuesStep.of_eq rfl (by omega), by dsimp only [fetchMissingDependency]; split <;> rfl⟩

theorem fetchArgs_trackerStep (wanted : ObjectID → Bool) (c : Nat) :
    ∀ (args : List TaskArg) (s : LocalSchedulerState n), TrackerStep s (fetchArgs wanted c args s)
  | [], _ => TrackerStep.rfl
  | .byValue :: args, s => fetchArgs_trackerStep wanted c args s
  | .byRef o :: args, s => by
    unfold fetchArgs
    split
    · exact (fetchMissingDependency_trackerStep s c o).trans (fetchArgs_trackerStep wanted c args _)
    · exact fetchArgs_trackerStep wanted c args s

/-- The argument loop changes only `remote_objects`. -/
theorem fetchArgs_eq (wanted : ObjectID → Bool) (c : Nat) :
    ∀ (args : List TaskArg) (s : LocalSchedulerState n),
      ∃ R, (fetchArgs wanted c args s).1 = { s with algorithmState.remoteObjects := R }
  | [], s => ⟨s.algorithmState.remoteObjects, rfl⟩
  | .byValue :: args, s => fetchArgs_eq wanted c args s
  | .byRef o :: args, s => by
    unfold fetchArgs
    split
    · obtain ⟨R, hR⟩ := fetchArgs_eq wanted c args (fetchMissingDependency s c o).1
      exact ⟨R, hR⟩
    · exact fetchArgs_eq wanted c args s

theorem fetchMissingDependencies_trackerStep {c : Nat} {spec : TaskSpec n}
    (h : fetchMissingDependencies s c spec = some r) : TrackerStep s r := by
  simp only [fetchMissingDependencies, check_bind, Option.pure_def, Option.ite_none_right_eq_some,
    Option.some.injEq] at h
  exact h.2 ▸ fetchArgs_trackerStep _ c spec.args s

theorem queueWaitingTask_trackerStep {spec : TaskSpec n} {size : Int} {g : Bool}
    (h : queueWaitingTask s spec size g = some r) : TrackerStep s r := by
  simp only [queueWaitingTask, Option.bind_eq_bind, Option.bind_eq_some, Option.pure_def,
    Option.some.injEq] at h
  obtain ⟨r', hr', rfl⟩ := h
  have h' := fetchMissingDependencies_trackerStep hr'
  exact ⟨(QueuesStep.of_eq rfl (by omega)).trans h'.1, by simp [h'.2]⟩

theorem queueDispatchTask_trackerStep (s : LocalSchedulerState n) (spec : TaskSpec n) (size : Int)
    (g : Bool) : TrackerStep s (queueDispatchTask s spec size g) :=
  ⟨QueuesStep.of_eq rfl (by omega), assignments_taskTableQueued spec size g⟩

theorem queueTaskLocally_trackerStep {spec : TaskSpec n} {size : Int} {g : Bool}
    (h : queueTaskLocally s spec size g = some r) : TrackerStep s r := by
  unfold queueTaskLocally at h
  split at h
  · exact Option.some.inj h ▸ queueDispatchTask_trackerStep s spec size g
  · exact queueWaitingTask_trackerStep h

theorem giveTaskToGlobalScheduler_trackerStep {spec : TaskSpec n} {size : Int}
    (h : giveTaskToGlobalScheduler s spec size = some r) : TrackerStep s r := by
  unfold giveTaskToGlobalScheduler at h
  split at h
  · exact queueTaskLocally_trackerStep h
  · exact Option.some.inj h ▸ ⟨QueuesStep.rfl, rfl⟩

theorem giveTaskToLocalScheduler_eq {spec : TaskSpec n} {size : Int} {id : DBClientID}
    (h : giveTaskToLocalScheduler s spec size id = some r) :
    r = (s, [.taskTableAddTask ⟨spec, size, .scheduled, id⟩]) := by
  simp only [giveTaskToLocalScheduler, check_bind, Option.pure_def, Option.ite_none_right_eq_some,
    Option.some.injEq] at h
  exact h.2.2.symm

/-- `handle_task_submitted` and `handle_task_scheduled` queue the task (a tracker step) and
then dispatch. -/
theorem handleTaskSubmitted_shape {spec : TaskSpec n} {size : Int}
    (h : handleTaskSubmitted s spec size = some r) :
    ∃ q : LocalSchedulerState n × List (Effect n), TrackerStep s q ∧
      r = ((dispatchTasks q.1).1, q.2 ++ (dispatchTasks q.1).2) := by
  simp only [handleTaskSubmitted, Option.bind_eq_bind, Option.bind_eq_some, Option.pure_def,
    Option.some.injEq] at h
  obtain ⟨q, hq, rfl⟩ := h
  refine ⟨q, ?_, rfl⟩
  split at hq
  · exact Option.some.inj hq ▸ queueDispatchTask_trackerStep s spec size false
  · exact giveTaskToGlobalScheduler_trackerStep hq

theorem handleTaskScheduled_shape {spec : TaskSpec n} {size : Int}
    (h : handleTaskScheduled s spec size = some r) :
    ∃ q : LocalSchedulerState n × List (Effect n), TrackerStep s q ∧
      r = ((dispatchTasks q.1).1, q.2 ++ (dispatchTasks q.1).2) := by
  simp only [handleTaskScheduled, check_bind, Option.bind_eq_bind, Option.bind_eq_some,
    Option.pure_def, Option.some.injEq, Option.ite_none_right_eq_some] at h
  obtain ⟨-, -, q, hq, rfl⟩ := h
  exact ⟨q, queueTaskLocally_trackerStep hq, rfl⟩

theorem moveDependentTasks_frame :
    ∀ {cs : List Nat} {a a' : SchedulingAlgorithmState n}, moveDependentTasks cs a = some a' →
      ∃ W D, a' = { a with waitingTaskQueue := W, dispatchTaskQueue := D }
  | [], a, a', h => ⟨a.waitingTaskQueue, a.dispatchTaskQueue, (Option.some.inj h).symm⟩
  | c :: cs, a, a', h => by
    simp only [moveDependentTasks, Option.bind_eq_bind, Option.bind_eq_some] at h
    obtain ⟨entry, -, h⟩ := h
    split at h
    · obtain ⟨W, D, rfl⟩ := moveDependentTasks_frame h
      exact ⟨W, D, rfl⟩
    · exact moveDependentTasks_frame h

/-- `handle_object_available` is a tracker step, followed by a dispatch when the object had
dependents. -/
theorem handleObjectAvailable_shape {o : ObjectID} (h : handleObjectAvailable s o = some r) :
    ∃ s', QueuesStep s s' ∧
      ((r = (s', []) ∧ s'.algorithmState.dispatchTaskQueue = s.algorithmState.dispatchTaskQueue) ∨
        r = dispatchTasks s') := by
  simp only [handleObjectAvailable, check_bind, Option.ite_none_right_eq_some] at h
  obtain ⟨-, h⟩ := h
  split at h
  · exact ⟨_, QueuesStep.of_eq rfl (by omega), .inl ⟨(Option.some.inj h).symm, rfl⟩⟩
  · simp only [Option.bind_eq_bind, Option.bind_eq_some, Option.pure_def, Option.some.injEq] at h
    obtain ⟨a', ha', rfl⟩ := h
    obtain ⟨W, D, rfl⟩ := moveDependentTasks_frame ha'
    exact ⟨_, QueuesStep.of_eq rfl (by omega), .inr rfl⟩

theorem requeueDependentTasks_queuesStep (o : ObjectID) :
    ∀ (q : List (TaskQueueEntry n)) (s : LocalSchedulerState n),
      QueuesStep s (requeueDependentTasks o q s).1
  | [], _ => QueuesStep.rfl
  | task :: rest, s => by
    unfold requeueDependentTasks
    split
    · exact (QueuesStep.of_eq rfl (by omega)).trans (requeueDependentTasks_queuesStep o rest _)
    · exact requeueDependentTasks_queuesStep o rest s

theorem refetchRemoved_trackerStep (o : ObjectID) :
    ∀ (w : List (Nat × TaskQueueEntry n)) (s : LocalSchedulerState n),
      TrackerStep s (refetchRemoved o w s)
  | [], _ => TrackerStep.rfl
  | (c, entry) :: rest, s =>
    (fetchArgs_trackerStep _ c entry.spec.args s).trans (refetchRemoved_trackerStep o rest _)

theorem requeueDependentTasks_sublist (o : ObjectID) :
    ∀ (q : List (TaskQueueEntry n)) (s : LocalSchedulerState n), List.Sublist (requeueDependentTasks o q s).2 q
  | [], _ => List.Sublist.slnil
  | task :: rest, s => by
    unfold requeueDependentTasks
    split
    · exact .cons _ (requeueDependentTasks_sublist o rest _)
    · exact .cons₂ _ (requeueDependentTasks_sublist o rest s)

/-- The loop over the waiting queue changes only `remote_objects`. -/
theorem refetchRemoved_eq (o : ObjectID) :
    ∀ (w : List (Nat × TaskQueueEntry n)) (s : LocalSchedulerState n),
      ∃ R, (refetchRemoved o w s).1 = { s with algorithmState.remoteObjects := R }
  | [], s => ⟨s.algorithmState.remoteObjects, rfl⟩
  | (c, entry) :: rest, s => by
    obtain ⟨R₁, h₁⟩ := fetchArgs_eq (· = o) c entry.spec.args s
    obtain ⟨R, hR⟩ := refetchRemoved_eq o rest (fetchArgs (· = o) c entry.spec.args s).1
    refine ⟨R, ?_⟩
    show (refetchRemoved o rest (fetchArgs (· = o) c entry.spec.args s).1).1 = _
    rw [hR, h₁]

/-- `handle_object_removed` keeps only part of the dispatch queue, in order. -/
theorem handleObjectRemoved_dispatch_sublist {o : ObjectID} (h : handleObjectRemoved s o = some r) :
    List.Sublist r.1.algorithmState.dispatchTaskQueue s.algorithmState.dispatchTaskQueue := by
  simp only [handleObjectRemoved, check_bind, Option.pure_def, Option.ite_none_right_eq_some,
    Option.some.injEq] at h
  obtain ⟨-, rfl⟩ := h
  obtain ⟨R, hR⟩ := refetchRemoved_eq o _ _
  rw [hR]
  exact requeueDependentTasks_sublist o _ _

theorem handleObjectRemoved_trackerStep {o : ObjectID} (h : handleObjectRemoved s o = some r) :
    TrackerStep s r := by
  simp only [handleObjectRemoved, check_bind, Option.pure_def, Option.ite_none_right_eq_some,
    Option.some.injEq] at h
  obtain ⟨-, rfl⟩ := h
  exact ⟨((QueuesStep.of_eq rfl le_rfl).trans (requeueDependentTasks_queuesStep o _ _)).trans
    ((QueuesStep.of_eq rfl le_rfl).trans (refetchRemoved_trackerStep o _ _).1),
    (refetchRemoved_trackerStep o _ _).2⟩

theorem handleDriverRemoved_trackerStep {d : WorkerID} (h : handleDriverRemoved s d = some r) :
    TrackerStep s r := by
  simp only [handleDriverRemoved, Option.bind_eq_bind, Option.bind_eq_some, Option.pure_def,
    Option.some.injEq] at h
  obtain ⟨R, -, rfl⟩ := h
  exact ⟨QueuesStep.of_eq rfl (by omega), rfl⟩

theorem handleDriverRemoved_dispatch_sublist {d : WorkerID} (h : handleDriverRemoved s d = some r) :
    List.Sublist r.1.algorithmState.dispatchTaskQueue s.algorithmState.dispatchTaskQueue := by
  simp only [handleDriverRemoved, Option.bind_eq_bind, Option.bind_eq_some, Option.pure_def,
    Option.some.injEq] at h
  obtain ⟨R, -, rfl⟩ := h
  exact List.filter_sublist _

theorem fetchObjectTimeoutHandler_trackerStep (s : LocalSchedulerState n) :
    TrackerStep s (s, fetchObjectTimeoutHandler s) := by
  refine ⟨QueuesStep.rfl, ?_⟩
  unfold fetchObjectTimeoutHandler
  split
  · simp only [assignments_plasmaFetch]
    induction s.algorithmState.remoteObjects <;> simp [*]
  · rfl

end Frames

end LocalScheduler
