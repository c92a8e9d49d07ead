import Mathlib.Algebra.Order.Ring.Rat

/-!
# The local scheduler: data model

The state that `local_scheduler_algorithm.cc` keeps (`SchedulingAlgorithmState`), the part of
the surrounding `LocalSchedulerState` it reads, and the calls it makes to its collaborators.

* Ids (`ObjectID`, `ActorID`, `WorkerID`, `DBClientID`) are naturals; a 20-byte id is one of
  them.
* The `std::list` queues keep their node addresses: the waiting queue is a list of
  `(cursor, entry)` pairs, and a cursor (a `std::list<TaskQueueEntry>::iterator`) is the
  address of its node. A `TaskQueueEntry` carries the address of its private copy of the spec,
  which is what `assign_task_to_worker` receives. Fresh addresses come from `nextAddress`.
* `remote_objects` is an association list, because `handle_driver_removed` walks it;
  `local_objects`, `local_actor_infos` and `actor_mapping` are only looked up, so they are
  functions.
* A failed `CHECK` or `DCHECK` ends the run: the fallible operations return `Option`.
* Resource vectors have `n` components (`ResourceIndex_MAX`, declared outside `src/`) and
  rational entries, so that their arithmetic is exact.
-/

namespace LocalScheduler

/-- The 20-byte ids of the system (objects, actors, drivers, database clients). -/
abbrev UniqueID := Nat

abbrev ObjectID := UniqueID
abbrev ActorID := UniqueID
abbrev WorkerID := UniqueID
abbrev DBClientID := UniqueID

/-- Modelled from the spec: `NIL_ID` (declared in `common.h`, not under `src/`), the id that
marks "no actor" in a task spec. Any fixed id serves. -/
def nilId : UniqueID := 0

/-- `NIL_ACTOR_ID`: a task whose actor id is nil is a regular task. -/
def nilActorId : ActorID := nilId

/-! ## Task specifications -/

/-- An argument of a task: an object passed by reference, or an inline value (whose bytes no
scheduling decision reads). -/
inductive TaskArg where
  | byRef (objectId : ObjectID)
  | byValue
  deriving DecidableEq, Repr

/-- The accessors of a `TaskSpec` that the algorithm reads. -/
structure TaskSpec (n : Nat) where
  /-- `TaskSpec_driver_id`. -/
  driverId : WorkerID
  /-- `TaskSpec_actor_id`; `nilActorId` for a regular task. -/
  actorId : ActorID
  /-- `TaskSpec_actor_counter`, meaningful for actor tasks only. -/
  actorCounter : Int
  /-- `TaskSpec_arg_by_ref`, `TaskSpec_arg_id` for `0 ≤ i < TaskSpec_num_args`. -/
  args : List TaskArg
  /-- `TaskSpec_get_required_resource`. -/
  requiredResources : Fin n → ℚ

/-- The id of a by-reference argument (`TaskSpec_arg_by_ref`, `TaskSpec_arg_id`). -/
def TaskArg.refId : TaskArg → Option ObjectID
  | .byRef objectId => some objectId
  | .byValue => none

/-- The ids of the by-reference arguments, one per argument position. -/
def TaskSpec.refIds {n : Nat} (spec : TaskSpec n) : List ObjectID :=
  spec.args.filterMap TaskArg.refId

/-- Modelled from the spec: `TaskSpec_is_dependent_on` (`common/task.cc`, not under `src/`),
true iff the task passes the object by reference. -/
def TaskSpec.isDependentOn {n : Nat} (spec : TaskSpec n) (objectId : ObjectID) : Bool :=
  objectId ∈ spec.refIds

/-- A `TaskQueueEntry`: the address of the entry's own copy of the spec, the spec stored
there, and its size. -/
structure TaskQueueEntry (n : Nat) where
  specAddr : Nat
  spec : TaskSpec n
  taskSpecSize : Int

/-! ## Workers, actors and the task table -/

/-- A connected client (`LocalSchedulerClient *`): its address, and the actor it runs
(`nilActorId` for a regular worker). -/
structure LocalSchedulerClient where
  clientId : Nat
  actorId : ActorID
  deriving DecidableEq, Repr

/-- `LocalActorInfo`: the per-actor queue, the counter of the next task to run, and the
actor's worker (`none` while it has not connected: the `NULL` of `create_actor`). -/
structure LocalActorInfo (n : Nat) where
  actorId : ActorID
  taskCounter : Int
  taskQueue : List (TaskQueueEntry n)
  worker : Option LocalSchedulerClient
  workerAvailable : Bool

/-- The task statuses the algorithm writes to the task table. -/
inductive TaskStatus where
  | queued
  | scheduled
  | waiting
  deriving DecidableEq, Repr

/-- A task-table row built by `Task_alloc(spec, task_spec_size, status, local_scheduler_id)`. -/
structure Task (n : Nat) where
  spec : TaskSpec n
  taskSpecSize : Int
  state : TaskStatus
  localSchedulerId : DBClientID

/-- The collaborator calls the algorithm makes, in the order it makes them. -/
inductive Effect (n : Nat) where
  /-- `assign_task_to_worker(state, task.spec, task.task_spec_size, worker)`. -/
  | assignTaskToWorker (task : TaskQueueEntry n) (worker : LocalSchedulerClient)
  /-- `start_worker(state, actor_id)`. -/
  | startWorker (actorId : ActorID)
  /-- `plasma_fetch(state->plasma_conn, num_object_ids, object_ids)`. -/
  | plasmaFetch (objectIds : List ObjectID)
  /-- `task_table_add_task(state->db, task, ...)`. -/
  | taskTableAddTask (task : Task n)
  /-- `task_table_update(state->db, task, ...)`. -/
  | taskTableUpdate (task : Task n)
  /-- `reconstruct_object(state, object_id)`. -/
  | reconstructObject (objectId : ObjectID)

/-! ## The algorithm state -/

/-- `SchedulingAlgorithmState`. The values of `remote_objects` are the `dependent_tasks`
vectors of its `ObjectEntry`s (their `object_id` is the key); the `ObjectEntry`s of
`local_objects` are never read, so `local_objects` is its key set. -/
structure SchedulingAlgorithmState (n : Nat) where
  waitingTaskQueue : List (Nat × TaskQueueEntry n)
  dispatchTaskQueue : List (TaskQueueEntry n)
  localActorInfos : ActorID → Option (LocalActorInfo n)
  cachedSubmittedActorTasks : List (TaskSpec n)
  cachedSubmittedActorTaskSizes : List Int
  availableWorkers : List LocalSchedulerClient
  executingWorkers : List LocalSchedulerClient
  blockedWorkers : List LocalSchedulerClient
  localObjects : ObjectID → Bool
  remoteObjects : List (ObjectID × List Nat)

/-- `SchedulingAlgorithmState_init`: empty queues, tables and worker pools. -/
def SchedulingAlgorithmState.init (n : Nat) : SchedulingAlgorithmState n where
  waitingTaskQueue := []
  dispatchTaskQueue := []
  localActorInfos := fun _ => none
  cachedSubmittedActorTasks := []
  cachedSubmittedActorTaskSizes := []
  availableWorkers := []
  executingWorkers := []
  blockedWorkers := []
  localObjects := fun _ => false
  remoteObjects := []

/-- The fields of `LocalSchedulerState` (`local_scheduler_shared.h`) that the algorithm reads,
with its own state. `db` is `get_db_client_id(state->db)`, `none` when `state->db` is `NULL`;
`plasmaConnected` is `plasma_manager_is_connected(state->plasma_conn)`; `numChildPids` is
`state->child_pids.size()`; `nextAddress` is the first address the allocator has not handed
out. -/
structure LocalSchedulerState (n : Nat) where
  algorithmState : SchedulingAlgorithmState n
  db : Option DBClientID
  globalSchedulerExists : Bool
  actorMapping : ActorID → Option DBClientID
  staticResources : Fin n → ℚ
  dynamicResources : Fin n → ℚ
  plasmaConnected : Bool
  numChildPids : Nat
  nextAddress : Nat

/-- `CHECK(cond)` and `DCHECK(cond)`: the scheduler aborts, so there is no next state, unless
`cond` holds. -/
def check (p : Prop) [Decidable p] : Option Unit :=
  if p then some () else none

@[simp] theorem check_eq_some {p : Prop} [Decidable p] : check p = some () ↔ p := by
  unfold check; split <;> simp_all

@[simp] theorem check_bind {α : Type} {p : Prop} [Decidable p] (f : Unit → Option α) :
    (check p >>= f) = if p then f () else none := by
  unfold check; split <;> rfl

variable {n : Nat}

/-! ## What an operation leaves alone

Most operations touch one corner of the state. These relations name the corners, so that an
invariant of one corner passes through the operations of the others by a field lemma. -/

namespace LocalSchedulerState

/-- `s'` has the worker pools of `s`. -/
structure SamePools (s s' : LocalSchedulerState n) : Prop where
  available : s'.algorithmState.availableWorkers = s.algorithmState.availableWorkers
  executing : s'.algorithmState.executingWorkers = s.algorithmState.executingWorkers
  blocked : s'.algorithmState.blockedWorkers = s.algorithmState.blockedWorkers

/-- `s'` has the regular path's data of `s`: the worker pools, the two queues and the object
tables. -/
structure SameRegular (s s' : LocalSchedulerState n) : Prop where
  pools : SamePools s s'
  waiting : s'.algorithmState.waitingTaskQueue = s.algorithmState.waitingTaskQueue
  dispatch : s'.algorithmState.dispatchTaskQueue = s.algorithmState.dispatchTaskQueue
  localObjects : s'.algorithmState.localObjects = s.algorithmState.localObjects
  remoteObjects : s'.algorithmState.remoteObjects = s.algorithmState.remoteObjects

/-- `s'` has the actor path's data of `s`: the actor records and the cached actor tasks. -/
structure SameActors (s s' : LocalSchedulerState n) : Prop where
  infos : s'.algorithmState.localActorInfos = s.algorithmState.localActorInfos
  cached : s'.algorithmState.cachedSubmittedActorTasks = s.algorithmState.cachedSubmittedActorTasks
  cachedSizes : s'.algorithmState.cachedSubmittedActorTaskSizes =
    s.algorithmState.cachedSubmittedActorTaskSizes

/-- `s'` has the collaborators' state of `s` that no handler writes. -/
structure SameConfig (s s' : LocalSchedulerState n) : Prop where
  db : s'.db = s.db
  globalSchedulerExists : s'.globalSchedulerExists = s.globalSchedulerExists
  actorMapping : s'.actorMapping = s.actorMapping
  staticResources : s'.staticResources = s.staticResources
  plasmaConnected : s'.plasmaConnected = s.plasmaConnected
  numChildPids : s'.numChildPids = s.numChildPids

variable {s s' s'' : LocalSchedulerState n}

theorem SamePools.rfl : SamePools s s := ⟨Eq.refl _, Eq.refl _, Eq.refl _⟩

theorem SamePools.trans (h : SamePools s s') (h' : SamePools s' s'') : SamePools s s'' :=
  ⟨h'.1.trans h.1, h'.2.trans h.2, h'.3.trans h.3⟩

theorem SameRegular.rfl : SameRegular s s := ⟨SamePools.rfl, Eq.refl _, Eq.refl _, Eq.refl _, Eq.refl _⟩

theorem SameRegular.trans (h : SameRegular s s') (h' : SameRegular s' s'') : SameRegular s s'' :=
  ⟨h.1.trans h'.1, h'.2.trans h.2, h'.3.trans h.3, h'.4.trans h.4, h'.5.trans h.5⟩

theorem SameActors.rfl : SameActors s s := ⟨Eq.refl _, Eq.refl _, Eq.refl _⟩

theorem SameActors.trans (h : SameActors s s') (h' : SameActors s' s'') : SameActors s s'' :=
  ⟨h'.1.trans h.1, h'.2.trans h.2, h'.3.trans h.3⟩

theorem SameConfig.rfl : SameConfig s s :=
  ⟨Eq.refl _, Eq.refl _, Eq.refl _, Eq.refl _, Eq.refl _, Eq.refl _⟩

theorem SameConfig.trans (h : SameConfig s s') (h' : SameConfig s' s'') : SameConfig s s'' :=
  ⟨h'.1.trans h.1, h'.2.trans h.2, h'.3.trans h.3, h'.4.trans h.4, h'.5.trans h.5, h'.6.trans h.6⟩

/-- `s'` differs from `s` at most in the two queues, the object tables and the allocator: an
operation of the dependency tracker. -/
structure QueuesStep (s s' : LocalSchedulerState n) : Prop where
  pools : SamePools s s'
  actors : SameActors s s'
  config : SameConfig s s'
  dynamicResources : s'.dynamicResources = s.dynamicResources
  /-- The allocator only hands addresses out. -/
  nextAddress : s.nextAddress ≤ s'.nextAddress

theorem QueuesStep.rfl : QueuesStep s s :=
  ⟨SamePools.rfl, SameActors.rfl, SameConfig.rfl, Eq.refl _, Nat.le_refl _⟩

theorem QueuesStep.trans (h : QueuesStep s s') (h' : QueuesStep s' s'') : QueuesStep s s'' :=
  ⟨h.1.trans h'.1, h.2.trans h'.2, h.3.trans h'.3, h'.4.trans h.4, h.5.trans h'.5⟩

/-- Any update of the queues, the object tables and the allocator is a `QueuesStep`. -/
theorem QueuesStep.of_eq {W : List (Nat × TaskQueueEntry n)} {D : List (TaskQueueEntry n)}
    {L : ObjectID → Bool} {R : List (ObjectID × List Nat)} {k : Nat}
    (h : s' = { s with
      nextAddress := k
      algorithmState.waitingTaskQueue := W
      algorithmState.dispatchTaskQueue := D
      algorithmState.localObjects := L
      algorithmState.remoteObjects := R }) (hk : s.nextAddress ≤ k) : QueuesStep s s' := by
  subst h
  exact ⟨⟨Eq.refl _, Eq.refl _, Eq.refl _⟩, ⟨Eq.refl _, Eq.refl _, Eq.refl _⟩,
    ⟨Eq.refl _, Eq.refl _, Eq.refl _, Eq.refl _, Eq.refl _, Eq.refl _⟩, Eq.refl _, hk⟩

/-- `s'` differs from `s` at most in the actor records, the cached actor tasks, the allocator
and the resources: an operation of the actor path. -/
structure ActorsStep (s s' : LocalSchedulerState n) : Prop where
  regular : SameRegular s s'
  config : SameConfig s s'
  /-- The allocator only hands addresses out. -/
  nextAddress : s.nextAddress ≤ s'.nextAddress

theorem ActorsStep.rfl : ActorsStep s s := ⟨SameRegular.rfl, SameConfig.rfl, Nat.le_refl _⟩

theorem ActorsStep.trans (h : ActorsStep s s') (h' : ActorsStep s' s'') : ActorsStep s s'' :=
  ⟨h.1.trans h'.1, h.2.trans h'.2, h.3.trans h'.3⟩

/-- Any update of the actor records, the cached actor tasks, the allocator and the resources
is an `ActorsStep`. -/
theorem ActorsStep.of_eq {I : ActorID → Option (LocalActorInfo n)} {C : List (TaskSpec n)}
    {Z : List Int} {k : Nat} {R : Fin n → ℚ}
    (h : s' = { s with
      nextAddress := k
      dynamicResources := R
      algorithmState.localActorInfos := I
      algorithmState.cachedSubmittedActorTasks := C
      algorithmState.cachedSubmittedActorTaskSizes := Z }) (hk : s.nextAddress ≤ k) :
    ActorsStep s s' := by
  subst h
  exact ⟨⟨⟨Eq.refl _, Eq.refl _, Eq.refl _⟩, Eq.refl _, Eq.refl _, Eq.refl _, Eq.refl _⟩,
    ⟨Eq.refl _, Eq.refl _, Eq.refl _, Eq.refl _, Eq.refl _, Eq.refl _⟩, hk⟩

/-- `s'` differs from `s` at most in the worker pools: what a worker handler does before it
dispatches. -/
structure PoolsStep (s s' : LocalSchedulerState n) : Prop where
  actors : SameActors s s'
  config : SameConfig s s'
  waiting : s'.algorithmState.waitingTaskQueue = s.algorithmState.waitingTaskQueue
  dispatch : s'.algorithmState.dispatchTaskQueue = s.algorithmState.dispatchTaskQueue
  localObjects : s'.algorithmState.localObjects = s.algorithmState.localObjects
  remoteObjects : s'.algorithmState.remoteObjects = s.algorithmState.remoteObjects
  dynamicResources : s'.dynamicResources = s.dynamicResources
  nextAddress : s'.nextAddress = s.nextAddress

/-- Any update of the worker pools is a `PoolsStep`. -/
theorem PoolsStep.of_eq {A E B : List LocalSchedulerClient}
    (h : s' = { s with
      algorithmState.availableWorkers := A
      algorithmState.executingWorkers := E
      algorithmState.blockedWorkers := B }) : PoolsStep s s' := by
  subst h
  exact ⟨⟨Eq.refl _, Eq.refl _, Eq.refl _⟩,
    ⟨Eq.refl _, Eq.refl _, Eq.refl _, Eq.refl _, Eq.refl _, Eq.refl _⟩,
    Eq.refl _, Eq.refl _, Eq.refl _, Eq.refl _, Eq.refl _, Eq.refl _⟩

end LocalSchedulerState

end LocalScheduler
