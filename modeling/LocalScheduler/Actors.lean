import LocalScheduler.Tracker

/-!
# Actors

The per-actor queues: `create_actor`, `remove_actor`, `dispatch_actor_task`,
`add_task_to_actor_queue` and the handlers built on them, down to the replay of the actor
tasks cached while their actor's location was unknown
(`handle_actor_creation_notification`).

An actor runs its tasks one at a time in the order of their actor counters:
`dispatch_actor_task` hands out the head of the queue only when its counter is the actor's
`task_counter` and the actor's worker has reported itself available.
-/

namespace LocalScheduler

variable {n : Nat}

/-- Set the `LocalActorInfo` of an actor (`none` erases it). -/
def SchedulingAlgorithmState.setActorInfo (a : SchedulingAlgorithmState n) (actorId : ActorID)
    (info : Option (LocalActorInfo n)) : SchedulingAlgorithmState n :=
  { a with localActorInfos := Function.update a.localActorInfos actorId info }

/-- `create_actor`: an empty queue, counter `0`, the worker if it is known, not available. -/
def createActor (a : SchedulingAlgorithmState n) (actorId : ActorID)
    (worker : Option LocalSchedulerClient) : Option (SchedulingAlgorithmState n) := do
  check ((a.localActorInfos actorId).isNone = true)
  pure (a.setActorInfo actorId (some ⟨actorId, 0, [], worker, false⟩))

/-- `remove_actor`: the actor's queued tasks are dropped with its record. -/
def removeActor (a : SchedulingAlgorithmState n) (actorId : ActorID) :
    Option (SchedulingAlgorithmState n) := do
  check ((a.localActorInfos actorId).isSome = true)
  pure (a.setActorInfo actorId none)

/-- The actor is ready: its worker is available and the head of its queue has the actor's next
counter, so `dispatch_actor_task` would hand that task out. -/
def LocalActorInfo.ready (info : LocalActorInfo n) : Prop :=
  info.workerAvailable = true ∧
    info.taskQueue.head?.map (·.spec.actorCounter) = some info.taskCounter

instance (info : LocalActorInfo n) : Decidable info.ready :=
  inferInstanceAs (Decidable (_ ∧ _))

/-- `dispatch_actor_task`: hand the head of the actor's queue to the actor's worker if its
counter is the next one to run and the worker is available. The result says whether a task
was handed out. A head counter below the actor's counter fails the `CHECK`; a worker that is
still `NULL` cannot be handed a task. -/
def dispatchActorTask (s : LocalSchedulerState n) (actorId : ActorID) :
    Option (LocalSchedulerState n × List (Effect n) × Bool) := do
  check (actorId ≠ nilActorId)
  check ((s.actorMapping actorId).isSome = true)
  let dbClientId ← s.db
  check (s.actorMapping actorId = some dbClientId)
  let entry ← s.algorithmState.localActorInfos actorId
  match entry.taskQueue with
  | [] => pure (s, [], false)
  | first :: rest =>
    if first.spec.actorCounter ≠ entry.taskCounter then do
      check (first.spec.actorCounter > entry.taskCounter)
      pure (s, [], false)
    else if !entry.workerAvailable then pure (s, [], false)
    else do
      let worker ← entry.worker
      let r := assignTaskToWorker s first worker
      let entry' := { entry with
        taskCounter := entry.taskCounter + 1, workerAvailable := false, taskQueue := rest }
      pure ({ r.1 with algorithmState := r.1.algorithmState.setActorInfo actorId (some entry') },
        [r.2], true)

/-- `handle_actor_worker_connect`: record the actor's worker, creating its record if no task
for it has arrived yet, and try to dispatch. -/
def handleActorWorkerConnect (s : LocalSchedulerState n) (actorId : ActorID)
    (worker : LocalSchedulerClient) : Option (LocalSchedulerState n × List (Effect n)) := do
  let a ← (match s.algorithmState.localActorInfos actorId with
    | none => createActor s.algorithmState actorId (some worker)
    | some entry =>
      some (s.algorithmState.setActorInfo actorId (some { entry with worker := some worker })))
  let r ← dispatchActorTask { s with algorithmState := a } actorId
  pure (r.1, r.2.1)

/-- `handle_actor_worker_disconnect`. -/
def handleActorWorkerDisconnect (s : LocalSchedulerState n) (actorId : ActorID) :
    Option (LocalSchedulerState n × List (Effect n)) := do
  let a ← removeActor s.algorithmState actorId
  pure ({ s with algorithmState := a }, [])

/-- The insertion loop of `add_task_to_actor_queue`: walk past the entries whose counter is
below the new one and insert there. -/
def insertActorTask (elt : TaskQueueEntry n) : List (TaskQueueEntry n) → List (TaskQueueEntry n)
  | [] => [elt]
  | t :: ts =>
    if elt.spec.actorCounter > t.spec.actorCounter then t :: insertActorTask elt ts
    else elt :: t :: ts

/-- `add_task_to_actor_queue`: create the actor's record if needed (with a `NULL` worker),
check the counter has not run yet, and insert a new entry by counter; then write the task
table as `queue_task` does. -/
def addTaskToActorQueue (s : LocalSchedulerState n) (spec : TaskSpec n) (taskSpecSize : Int)
    (fromGlobalScheduler : Bool) : Option (LocalSchedulerState n × List (Effect n)) := do
  let actorId := spec.actorId
  check (actorId ≠ nilActorId)
  let a ← (match s.algorithmState.localActorInfos actorId with
    | none => createActor s.algorithmState actorId none
    | some _ => some s.algorithmState)
  let entry ← a.localActorInfos actorId
  check (spec.actorCounter ≥ entry.taskCounter)
  let elt : TaskQueueEntry n := ⟨s.nextAddress, spec, taskSpecSize⟩
  pure ({ s with
    nextAddress := s.nextAddress + 1,
    algorithmState := a.setActorInfo actorId
      (some { entry with taskQueue := insertActorTask elt entry.taskQueue }) },
    taskTableQueued s spec taskSpecSize fromGlobalScheduler)

/-- `handle_actor_worker_available`: the actor's worker finished its task. -/
def handleActorWorkerAvailable (s : LocalSchedulerState n) (worker : LocalSchedulerClient) :
    Option (LocalSchedulerState n × List (Effect n)) := do
  let actorId := worker.actorId
  check (actorId ≠ nilActorId)
  let entry ← s.algorithmState.localActorInfos actorId
  check (entry.worker = some worker)
  check (entry.workerAvailable = false)
  let entry' := { entry with workerAvailable := true }
  let r ← dispatchActorTask
    { s with algorithmState := s.algorithmState.setActorInfo actorId (some entry') } actorId
  pure (r.1, r.2.1)

/-- `handle_actor_task_submitted`: cache the task while its actor's location is unknown;
queue and try to dispatch it if the actor lives here; otherwise hand it to the actor's
local scheduler. -/
def handleActorTaskSubmitted (s : LocalSchedulerState n) (spec : TaskSpec n) (taskSpecSize : Int) :
    Option (LocalSchedulerState n × List (Effect n)) := do
  let actorId := spec.actorId
  check (actorId ≠ nilActorId)
  match s.actorMapping actorId with
  | none =>
    pure ({ s with
      algorithmState.cachedSubmittedActorTasks := s.algorithmState.cachedSubmittedActorTasks ++ [spec],
      algorithmState.cachedSubmittedActorTaskSizes :=
        s.algorithmState.cachedSubmittedActorTaskSizes ++ [taskSpecSize] }, [])
  | some localSchedulerId =>
    let dbClientId ← s.db
    if localSchedulerId = dbClientId then do
      let r ← addTaskToActorQueue s spec taskSpecSize false
      let d ← dispatchActorTask r.1 actorId
      pure (d.1, r.2 ++ d.2.1)
    else giveTaskToLocalScheduler s spec taskSpecSize localSchedulerId

/-- The loop of `handle_actor_creation_notification`: `replayCachedActorTasks k i` runs the
iterations `i, …, i + k - 1`, each reading the cached arrays at its index as they are then
(the loop body may append to them). -/
def replayCachedActorTasks :
    Nat → Nat → LocalSchedulerState n → Option (LocalSchedulerState n × List (Effect n))
  | 0, _, s => some (s, [])
  | k + 1, i, s => do
    let spec ← s.algorithmState.cachedSubmittedActorTasks[i]?
    let taskSpecSize ← s.algorithmState.cachedSubmittedActorTaskSizes[i]?
    let r ← handleActorTaskSubmitted s spec taskSpecSize
    let r' ← replayCachedActorTasks k (i + 1) r.1
    pure (r'.1, r.2 ++ r'.2)

/-- `handle_actor_creation_notification`: resubmit the `N` cached actor tasks, then erase the
first `N` entries of both arrays, keeping what the resubmissions cached again. -/
def handleActorCreationNotification (s : LocalSchedulerState n) (_actorId : ActorID) :
    Option (LocalSchedulerState n × List (Effect n)) := do
  let numCached := s.algorithmState.cachedSubmittedActorTasks.length
  check (numCached = s.algorithmState.cachedSubmittedActorTaskSizes.length)
  let r ← replayCachedActorTasks numCached 0 s
  pure ({ r.1 with
    algorithmState.cachedSubmittedActorTasks :=
      r.1.algorithmState.cachedSubmittedActorTasks.drop numCached,
    algorithmState.cachedSubmittedActorTaskSizes :=
      r.1.algorithmState.cachedSubmittedActorTaskSizes.drop numCached }, r.2)

/-- `handle_actor_task_scheduled`: the global scheduler (or another local scheduler) placed
an actor task here. The actor's location may not be known here yet; that is tolerated. -/
def handleActorTaskScheduled (s : LocalSchedulerState n) (spec : TaskSpec n) (taskSpecSize : Int) :
    Option (LocalSchedulerState n × List (Effect n)) := do
  check (s.db.isSome = true)
  check (s.globalSchedulerExists = true)
  let actorId := spec.actorId
  check (actorId ≠ nilActorId)
  check ((s.actorMapping actorId).isNone || s.actorMapping actorId == s.db)
  let r ← addTaskToActorQueue s spec taskSpecSize true
  let d ← dispatchActorTask r.1 actorId
  pure (d.1, r.2 ++ d.2.1)

/-! ## The actor path, one record at a time

Every handler of the actor path is a sequence of operations on single actor records
(`ActorOp`), each under the guard the code checks before it, and each handler does only
operations of the kinds it names. The tasks a handler hands out are those of its
`dispatch` operations, in order, and each is debited from the resources (`ActorPathStep`).
What is proved about actors is proved on these operations. -/

/-- The kinds of operation on an actor record. -/
inductive ActorOpKind where
  | create (worker : Option LocalSchedulerClient)
  | insert
  | connect (worker : LocalSchedulerClient)
  | available
  | dispatch
  | remove
  deriving DecidableEq

/-- One operation of kind `k` on the record of actor `A`, with the task it hands out. -/
inductive ActorOp (A : ActorID) :
    ActorOpKind → Option (LocalActorInfo n) → Option (LocalActorInfo n) →
      List (TaskQueueEntry n × LocalSchedulerClient) → Prop
  /-- `create_actor`, with the actor's worker if it has connected. -/
  | create {worker : Option LocalSchedulerClient} (hworker : ∀ w ∈ worker, w.actorId = A) :
      ActorOp A (.create worker) none (some ⟨A, 0, [], worker, false⟩) []
  /-- `add_task_to_actor_queue`: a task of the actor whose counter has not run yet. -/
  | insert {info : LocalActorInfo n} {elt : TaskQueueEntry n} (hactor : elt.spec.actorId = A)
      (hcounter : info.taskCounter ≤ elt.spec.actorCounter) :
      ActorOp A .insert (some info)
        (some { info with taskQueue := insertActorTask elt info.taskQueue }) []
  /-- `handle_actor_worker_connect` for an actor with a record. -/
  | connect {info : LocalActorInfo n} {w : LocalSchedulerClient} (hw : w.actorId = A) :
      ActorOp A (.connect w) (some info) (some { info with worker := some w }) []
  /-- `handle_actor_worker_available`: the recorded worker is free again. -/
  | available {info : LocalActorInfo n} {w : LocalSchedulerClient} (hw : info.worker = some w)
      (hbusy : info.workerAvailable = false) :
      ActorOp A .available (some info) (some { info with workerAvailable := true }) []
  /-- `dispatch_actor_task` hands the head of the queue to the recorded worker. -/
  | dispatch {info : LocalActorInfo n} {first : TaskQueueEntry n}
      {rest : List (TaskQueueEntry n)} {w : LocalSchedulerClient} (hA : A ≠ nilActorId)
      (hq : info.taskQueue = first :: rest) (hcounter : first.spec.actorCounter = info.taskCounter)
      (havailable : info.workerAvailable = true) (hw : info.worker = some w) :
      ActorOp A .dispatch (some info)
        (some { info with
          taskCounter := info.taskCounter + 1, workerAvailable := false, taskQueue := rest })
        [(first, w)]
  /-- `remove_actor`. -/
  | remove {info : LocalActorInfo n} : ActorOp A .remove (some info) none []

/-- A sequence of operations on the actor records: which actor and kind, in order, and the
tasks they hand out, in order. -/
inductive ActorOps :
    List (ActorID × ActorOpKind) → (ActorID → Option (LocalActorInfo n)) →
      (ActorID → Option (LocalActorInfo n)) → List (TaskQueueEntry n × LocalSchedulerClient) →
        Prop
  | refl (I : ActorID → Option (LocalActorInfo n)) : ActorOps [] I I []
  | cons {ks : List (ActorID × ActorOpKind)} {I I' : ActorID → Option (LocalActorInfo n)}
      {A : ActorID} {k : ActorOpKind} {o : Option (LocalActorInfo n)}
      {c c' : List (TaskQueueEntry n × LocalSchedulerClient)} :
      ActorOp A k (I A) o c → ActorOps ks (Function.update I A o) I' c' →
        ActorOps ((A, k) :: ks) I I' (c ++ c')

namespace ActorOps

variable {I I' I'' : ActorID → Option (LocalActorInfo n)} {ks ks' : List (ActorID × ActorOpKind)}
  {c c' : List (TaskQueueEntry n × LocalSchedulerClient)}

theorem single {A : ActorID} {k : ActorOpKind} {o : Option (LocalActorInfo n)}
    (h : ActorOp A k (I A) o c) : ActorOps [(A, k)] I (Function.update I A o) c := by
  simpa using cons h (refl _)

theorem trans (h : ActorOps ks I I' c) (h' : ActorOps ks' I' I'' c') :
    ActorOps (ks ++ ks') I I'' (c ++ c') := by
  induction h with
  | refl => exact h'
  | cons hop _ ih => simpa using cons hop (ih h')

/-- A property of single records that every operation keeps holds of every record after a
sequence of operations. -/
theorem preserve {P : ActorID → LocalActorInfo n → Prop}
    (hop : ∀ {A k o o' c}, ActorOp A k o o' c → (∀ info ∈ o, P A info) → ∀ info ∈ o', P A info)
    (h : ActorOps ks I I' c) (hI : ∀ A, ∀ info ∈ I A, P A info) : ∀ A, ∀ info ∈ I' A, P A info := by
  induction h with
  | refl => exact hI
  | @cons ks I I' A k o c c' h₁ _ ih =>
    refine ih fun B => ?_
    by_cases hBA : B = A
    · subst hBA
      simpa using hop h₁ (hI B)
    · simpa [hBA] using hI B

/-- Operations on other actors leave the record of `B` alone. -/
theorem apply_of_forall_ne {B : ActorID} (h : ActorOps ks I I' c) (hB : ∀ p ∈ ks, p.1 ≠ B) :
    I' B = I B := by
  induction h with
  | refl => exact Eq.refl _
  | cons _ _ ih =>
    rw [ih fun p hp => hB p (List.mem_cons_of_mem _ hp)]
    exact Function.update_noteq (hB _ (List.mem_cons_self _ _)).symm _ _

theorem of_single {A : ActorID} {k : ActorOpKind} (h : ActorOps [(A, k)] I I' c) :
    ∃ o, ActorOp A k (I A) o c ∧ I' = Function.update I A o := by
  cases h with
  | cons hop hrest =>
    cases hrest
    exact ⟨_, by simpa using hop, Eq.refl _⟩

theorem of_append :
    ∀ {ks₁ ks₂ : List (ActorID × ActorOpKind)} {I I' : ActorID → Option (LocalActorInfo n)}
      {c : List (TaskQueueEntry n × LocalSchedulerClient)}, ActorOps (ks₁ ++ ks₂) I I' c →
        ∃ I₁ c₁ c₂, ActorOps ks₁ I I₁ c₁ ∧ ActorOps ks₂ I₁ I' c₂ ∧ c = c₁ ++ c₂
  | [], _, _, _, _, h => ⟨_, [], _, .refl _, h, Eq.refl _⟩
  | _ :: _, _, _, _, _, .cons hop hrest =>
    let ⟨I₁, _, c₂, h₁, h₂, hc⟩ := of_append hrest
    ⟨I₁, _, c₂, .cons hop h₁, h₂, by rw [hc, List.append_assoc]⟩

end ActorOps

/-- The worker recorded for an actor is that actor's worker. -/
def ActorWorkersKeyed (I : ActorID → Option (LocalActorInfo n)) : Prop :=
  ∀ A, ∀ info ∈ I A, ∀ w ∈ info.worker, w.actorId = A

/-- An operation keeps the record's worker the actor's own, and hands tasks only to workers
of actors. -/
theorem ActorOp.keyed {A : ActorID} {k : ActorOpKind} {o o' : Option (LocalActorInfo n)}
    {c : List (TaskQueueEntry n × LocalSchedulerClient)} (h : ActorOp A k o o' c)
    (ho : ∀ info ∈ o, ∀ w ∈ info.worker, w.actorId = A) :
    (∀ info ∈ o', ∀ w ∈ info.worker, w.actorId = A) ∧
      ∀ p ∈ c, p.2.actorId = A ∧ A ≠ nilActorId := by
  cases h with
  | create hworker => simpa using hworker
  | insert => simpa using ho
  | connect hw => simpa using hw
  | available => simpa using ho
  | dispatch hA _ _ _ hw =>
    simp only [Option.mem_def, Option.some.injEq, forall_eq', List.mem_singleton, forall_eq]
    exact ⟨ho _ rfl, ho _ rfl _ hw, hA⟩
  | remove => simp

/-- Only a `dispatch` hands out a task. -/
theorem ActorOp.eq_dispatch_of_mem {A : ActorID} {k : ActorOpKind} {o o' : Option (LocalActorInfo n)}
    {c : List (TaskQueueEntry n × LocalSchedulerClient)} {p : TaskQueueEntry n × LocalSchedulerClient}
    (h : ActorOp A k o o' c) (hp : p ∈ c) : k = .dispatch := by
  cases h <;> simp_all

/-- A removal erases the record and hands out nothing. -/
theorem ActorOp.eq_none_of_remove {A : ActorID} {o o' : Option (LocalActorInfo n)}
    {c : List (TaskQueueEntry n × LocalSchedulerClient)} (h : ActorOp A .remove o o' c) :
    o' = none ∧ c = [] := by
  cases h
  exact ⟨rfl, rfl⟩

theorem ActorOps.keyed {I I' : ActorID → Option (LocalActorInfo n)}
    {ks : List (ActorID × ActorOpKind)} {c : List (TaskQueueEntry n × LocalSchedulerClient)}
    (h : ActorOps ks I I' c) (hI : ActorWorkersKeyed I) :
    ActorWorkersKeyed I' ∧
      ∀ p ∈ c, p.2.actorId ≠ nilActorId ∧ (p.2.actorId, ActorOpKind.dispatch) ∈ ks := by
  induction h with
  | refl => exact ⟨hI, by simp⟩
  | @cons ks I I' A k o c c' hop hrest ih =>
    have hI' : ActorWorkersKeyed (Function.update I A o) :=
      ActorOps.preserve (P := fun A info => ∀ w ∈ info.worker, w.actorId = A)
        (fun h ho => (h.keyed ho).1) (ActorOps.single hop) hI
    obtain ⟨hkeyed, hc'⟩ := ih hI'
    refine ⟨hkeyed, fun p hp => ?_⟩
    rcases List.mem_append.1 hp with hp | hp
    · obtain ⟨hpA, hA⟩ := (hop.keyed (hI A)).2 p hp
      exact ⟨hpA ▸ hA, by simp [hpA, hop.eq_dispatch_of_mem hp]⟩
    · obtain ⟨hp₁, hp₂⟩ := hc' p hp
      exact ⟨hp₁, List.mem_cons_of_mem _ hp₂⟩

open LocalSchedulerState

/-- What one handler of the actor path does: it changes only the actor records, the cached
actor tasks, the allocator and the resources; on the records it is a sequence of operations,
of the kinds and in the order `allowed` admits, which hand out exactly the tasks it hands
out; and it debits each of those from the resources. -/
structure ActorPathStep (allowed : List (ActorID × ActorOpKind) → Prop)
    (s : LocalSchedulerState n) (r : LocalSchedulerState n × List (Effect n)) : Prop where
  frame : ActorsStep s r.1
  records : ∃ ks, ActorOps ks s.algorithmState.localActorInfos r.1.algorithmState.localActorInfos
    (assignments r.2) ∧ allowed ks
  resources : ∀ i, r.1.dynamicResources i =
    s.dynamicResources i - requiredSum ((assignments r.2).map Prod.fst) i

/-- The operations a task handler may do on the record of the task's actor `A`. -/
def ActorOpKind.taskOps (A : ActorID) : List (ActorID × ActorOpKind) :=
  [(A, .create none), (A, .insert), (A, .dispatch)]

section Refinement

variable {s s' : LocalSchedulerState n} {r r' : LocalSchedulerState n × List (Effect n)}
  {allowed allowed' : List (ActorID × ActorOpKind) → Prop}

/-- A step that hands out nothing. -/
theorem ActorPathStep.of_ops {ks : List (ActorID × ActorOpKind)} (hframe : ActorsStep s s')
    (hops : ActorOps ks s.algorithmState.localActorInfos s'.algorithmState.localActorInfos [])
    (hks : allowed ks) (hR : s'.dynamicResources = s.dynamicResources) :
    ActorPathStep allowed s (s', []) :=
  ⟨hframe, ⟨ks, hops, hks⟩, fun i => by simp [hR]⟩

theorem ActorPathStep.rfl (h : allowed []) : ActorPathStep allowed s (s, []) :=
  .of_ops ActorsStep.rfl (.refl _) h (Eq.refl _)

theorem ActorPathStep.mono (h : ActorPathStep allowed s r)
    (hallowed : ∀ ks, allowed ks → allowed' ks) : ActorPathStep allowed' s r :=
  let ⟨ks, hops, hks⟩ := h.2
  ⟨h.1, ⟨ks, hops, hallowed ks hks⟩, h.3⟩

/-- Two steps in a row do the operations of the first, then those of the second. -/
theorem ActorPathStep.trans (h : ActorPathStep allowed s r) (h' : ActorPathStep allowed' r.1 r') :
    ActorPathStep (fun ks => ∃ ks₁ ks₂, ks = ks₁ ++ ks₂ ∧ allowed ks₁ ∧ allowed' ks₂) s
      (r'.1, r.2 ++ r'.2) := by
  obtain ⟨ks, hops, hks⟩ := h.2
  obtain ⟨ks', hops', hks'⟩ := h'.2
  exact ⟨h.1.trans h'.1,
    ⟨ks ++ ks', by simpa using hops.trans hops', ks, ks', Eq.refl _, hks, hks'⟩,
    fun i => by simp [h'.3 i, h.3 i, sub_sub]⟩

/-- Two steps whose operations are among `L` and `L'`. -/
theorem ActorPathStep.trans_subset {L L' : List (ActorID × ActorOpKind)}
    (h : ActorPathStep (· ⊆ L) s r) (h' : ActorPathStep (· ⊆ L') r.1 r') :
    ActorPathStep (· ⊆ L ++ L') s (r'.1, r.2 ++ r'.2) :=
  (h.trans h').mono fun _ ⟨_, _, hks, h₁, h₂⟩ =>
    hks ▸ List.append_subset.2 ⟨h₁.trans (List.subset_append_left _ _),
      h₂.trans (List.subset_append_right _ _)⟩

theorem createActor_actorOps {a a' : SchedulingAlgorithmState n} {A : ActorID}
    {worker : Option LocalSchedulerClient} (hworker : ∀ w ∈ worker, w.actorId = A)
    (h : createActor a A worker = some a') :
    ∃ I, a' = { a with localActorInfos := I } ∧
      ActorOps [(A, .create worker)] a.localActorInfos I [] := by
  simp only [createActor, check_bind, Option.ite_none_right_eq_some, Option.pure_def,
    Option.some.injEq, Option.isNone_iff_eq_none] at h
  obtain ⟨hnone, rfl⟩ := h
  refine ⟨_, rfl, ActorOps.single ?_⟩
  rw [hnone]
  exact .create hworker

/-- Everything `dispatch_actor_task` can do once its checks pass on the record `info` of `A`:
hand out nothing and change nothing, when the actor is not `ready`, or hand the head of the
queue to the recorded worker and advance the actor's counter. -/
theorem dispatchActorTask_cases {A : ActorID}
    {r : LocalSchedulerState n × List (Effect n) × Bool} (h : dispatchActorTask s A = some r) :
    A ≠ nilActorId ∧ ∃ info, s.algorithmState.localActorInfos A = some info ∧
      ((¬ info.ready ∧ r = (s, [], false)) ∨
        ∃ first rest w, info.taskQueue = first :: rest ∧
          first.spec.actorCounter = info.taskCounter ∧ info.workerAvailable = true ∧
          info.worker = some w ∧
          r = ({ (assignTaskToWorker s first w).1 with
            algorithmState := s.algorithmState.setActorInfo A (some { info with
              taskCounter := info.taskCounter + 1, workerAvailable := false, taskQueue := rest }) },
            [(assignTaskToWorker s first w).2], true)) := by
  simp only [dispatchActorTask, check_bind, Option.ite_none_right_eq_some, Option.bind_eq_bind,
    Option.bind_eq_some] at h
  obtain ⟨hA, -, d, -, -, info, hinfo, h⟩ := h
  refine ⟨hA, info, hinfo, ?_⟩
  split at h
  · rename_i hq
    exact .inl ⟨by simp [LocalActorInfo.ready, hq], (Option.some.inj h).symm⟩
  · rename_i first rest hq
    split at h
    · rename_i hcounter
      simp only [check_bind, Option.ite_none_right_eq_some, Option.pure_def,
        Option.some.injEq] at h
      exact .inl ⟨by simp [LocalActorInfo.ready, hq, hcounter], h.2.symm⟩
    · rename_i hcounter
      split at h
      · rename_i havailable
        exact .inl ⟨by simp_all [LocalActorInfo.ready], (Option.some.inj h).symm⟩
      · rename_i havailable
        simp only [Option.bind_eq_bind, Option.bind_eq_some, Option.pure_def,
          Option.some.injEq] at h
        obtain ⟨w, hw, rfl⟩ := h
        exact .inr ⟨first, rest, w, hq, not_not.1 hcounter, by simpa using havailable, hw,
          Eq.refl _⟩

theorem dispatchActorTask_actorPathStep {A : ActorID}
    {r : LocalSchedulerState n × List (Effect n) × Bool} (h : dispatchActorTask s A = some r) :
    ActorPathStep (· ⊆ [(A, .dispatch)]) s (r.1, r.2.1) := by
  obtain ⟨hA, info, hinfo, ⟨-, rfl⟩ |
    ⟨first, rest, w, hq, hcounter, havailable, hw, rfl⟩⟩ := dispatchActorTask_cases h
  · exact ActorPathStep.rfl (List.nil_subset _)
  · refine ⟨ActorsStep.of_eq rfl le_rfl,
      ⟨_, ActorOps.single (k := .dispatch) ?_, List.Subset.refl _⟩,
      fun i => by simp [assignTaskToWorker]⟩
    rw [hinfo]
    exact .dispatch hA hq hcounter havailable hw

/-- After `dispatch_actor_task` for `A`, the actor is not ready. -/
theorem dispatchActorTask_not_ready {A : ActorID}
    {r : LocalSchedulerState n × List (Effect n) × Bool} (h : dispatchActorTask s A = some r) :
    ∀ info ∈ r.1.algorithmState.localActorInfos A, ¬ info.ready := by
  obtain ⟨-, info, hinfo, ⟨hready, rfl⟩ | ⟨first, rest, w, -, -, -, -, rfl⟩⟩ :=
    dispatchActorTask_cases h
  · simpa [hinfo] using hready
  · simp [SchedulingAlgorithmState.setActorInfo, LocalActorInfo.ready]

/-- The operations `first` admits, then dispatches for `A`. -/
def ActorOpKind.thenDispatch (A : ActorID) (first : List (ActorID × ActorOpKind) → Prop)
    (ks : List (ActorID × ActorOpKind)) : Prop :=
  ∃ ks₁ ks₂, ks = ks₁ ++ ks₂ ∧ first ks₁ ∧ ks₂ ⊆ [(A, .dispatch)]

theorem ActorOpKind.thenDispatch_subset_taskOps {A : ActorID} {ks : List (ActorID × ActorOpKind)}
    (h : ActorOpKind.thenDispatch A (· ⊆ [(A, .create none), (A, .insert)]) ks) :
    ks ⊆ ActorOpKind.taskOps A := by
  obtain ⟨ks₁, ks₂, rfl, h₁, h₂⟩ := h
  exact List.append_subset.2 ⟨h₁.trans (by simp [taskOps]), h₂.trans (by simp [taskOps])⟩

/-- A handler that ends in `dispatch_actor_task` for `A`: operations on the actor records that
`first` admits, then that call, whose result it returns. -/
def DispatchesAfter (first : List (ActorID × ActorOpKind) → Prop) (A : ActorID)
    (s : LocalSchedulerState n) (r : LocalSchedulerState n × List (Effect n)) : Prop :=
  ∃ q d, ActorPathStep first s q ∧ dispatchActorTask q.1 A = some d ∧ r = (d.1, q.2 ++ d.2.1)

theorem DispatchesAfter.actorPathStep {first : List (ActorID × ActorOpKind) → Prop} {A : ActorID}
    (h : DispatchesAfter first A s r) : ActorPathStep (ActorOpKind.thenDispatch A first) s r := by
  obtain ⟨q, d, hq, hd, rfl⟩ := h
  exact hq.trans (dispatchActorTask_actorPathStep hd)

theorem addTaskToActorQueue_actorPathStep {spec : TaskSpec n} {size : Int} {g : Bool}
    (h : addTaskToActorQueue s spec size g = some r) :
    ActorPathStep (· ⊆ [(spec.actorId, .create none), (spec.actorId, .insert)]) s r := by
  simp only [addTaskToActorQueue, check_bind, Option.ite_none_right_eq_some, Option.bind_eq_bind,
    Option.bind_eq_some, Option.pure_def, Option.some.injEq] at h
  obtain ⟨-, a, ha, entry, hentry, hcounter, rfl⟩ := h
  have hcreate : ∃ I ks, a = { s.algorithmState with localActorInfos := I } ∧
      ActorOps ks s.algorithmState.localActorInfos I [] ∧ ks ⊆ [(spec.actorId, .create none)] := by
    split at ha
    · obtain ⟨I, rfl, hops⟩ := createActor_actorOps (by simp) ha
      exact ⟨I, _, rfl, hops, List.Subset.refl _⟩
    · exact ⟨_, [], (Option.some.inj ha).symm, .refl _, List.nil_subset _⟩
  obtain ⟨I, ks, rfl, hops, hks⟩ := hcreate
  have hentry' : I spec.actorId = some entry := hentry
  refine ⟨ActorsStep.of_eq rfl (by omega), ⟨ks ++ [(spec.actorId, .insert)], ?_, ?_⟩,
    fun i => by simp⟩
  · simp only [assignments_taskTableQueued]
    refine hops.trans (ActorOps.single ?_)
    rw [hentry']
    exact .insert rfl hcounter
  · exact List.append_subset.2 ⟨hks.trans (by simp), by simp⟩

/-- `handle_actor_worker_connect` creates the actor's record or records its worker, then
dispatches. -/
theorem handleActorWorkerConnect_dispatchesAfter {A : ActorID} {w : LocalSchedulerClient}
    (hw : w.actorId = A) (h : handleActorWorkerConnect s A w = some r) :
    DispatchesAfter (fun ks => ks = [(A, .create (some w))] ∨ ks = [(A, .connect w)]) A s r := by
  simp only [handleActorWorkerConnect, Option.bind_eq_bind, Option.bind_eq_some, Option.pure_def,
    Option.some.injEq] at h
  obtain ⟨a, ha, d, hd, rfl⟩ := h
  refine ⟨({ s with algorithmState := a }, []), d, ?_, hd, Eq.refl _⟩
  split at ha
  · obtain ⟨I, rfl, hops⟩ := createActor_actorOps (by simpa using hw) ha
    exact .of_ops (ActorsStep.of_eq rfl le_rfl) hops (.inl rfl) (Eq.refl _)
  · rename_i entry hentry
    cases ha
    refine .of_ops (ActorsStep.of_eq rfl le_rfl) (ActorOps.single (k := .connect w) ?_) (.inr rfl)
      (Eq.refl _)
    rw [hentry]
    exact .connect hw

theorem handleActorWorkerDisconnect_actorPathStep {A : ActorID}
    (h : handleActorWorkerDisconnect s A = some r) : ActorPathStep (· = [(A, .remove)]) s r := by
  simp only [handleActorWorkerDisconnect, removeActor, check_bind, Option.ite_none_right_eq_some,
    Option.bind_eq_bind, Option.bind_eq_some, Option.pure_def, Option.some.injEq] at h
  obtain ⟨a, ⟨hsome, rfl⟩, rfl⟩ := h
  obtain ⟨info, hinfo⟩ := Option.isSome_iff_exists.1 hsome
  refine .of_ops (ActorsStep.of_eq rfl le_rfl) (ActorOps.single (k := .remove) ?_) rfl (Eq.refl _)
  rw [hinfo]
  exact .remove

/-- `handle_actor_worker_available` marks the worker available, then dispatches. -/
theorem handleActorWorkerAvailable_dispatchesAfter {w : LocalSchedulerClient}
    (h : handleActorWorkerAvailable s w = some r) :
    DispatchesAfter (· = [(w.actorId, .available)]) w.actorId s r := by
  simp only [handleActorWorkerAvailable, check_bind, Option.ite_none_right_eq_some,
    Option.bind_eq_bind, Option.bind_eq_some, Option.pure_def, Option.some.injEq] at h
  obtain ⟨-, entry, hentry, hw, hbusy, d, hd, rfl⟩ := h
  refine ⟨({ s with
      algorithmState := s.algorithmState.setActorInfo w.actorId
        (some { entry with workerAvailable := true }) }, []), d,
    .of_ops (ActorsStep.of_eq rfl le_rfl) (ActorOps.single (k := .available) ?_) rfl (Eq.refl _),
    hd, Eq.refl _⟩
  rw [hentry]
  exact .available hw hbusy

/-- `handle_actor_task_submitted` leaves the actor records alone when it caches the task or
hands it to the actor's local scheduler, and otherwise queues it and dispatches. -/
theorem handleActorTaskSubmitted_cases {spec : TaskSpec n} {size : Int}
    (h : handleActorTaskSubmitted s spec size = some r) :
    ActorPathStep (· = []) s r ∨
      DispatchesAfter (· ⊆ [(spec.actorId, .create none), (spec.actorId, .insert)])
        spec.actorId s r := by
  simp only [handleActorTaskSubmitted, check_bind, Option.ite_none_right_eq_some] at h
  obtain ⟨-, h⟩ := h
  split at h
  · exact .inl (Option.some.inj h ▸
      .of_ops (ActorsStep.of_eq rfl le_rfl) (.refl _) rfl (Eq.refl _))
  · simp only [Option.bind_eq_bind, Option.bind_eq_some] at h
    obtain ⟨d, -, h⟩ := h
    split at h
    · simp only [Option.bind_eq_bind, Option.bind_eq_some, Option.pure_def,
        Option.some.injEq] at h
      obtain ⟨q, hq, d', hd', rfl⟩ := h
      exact .inr ⟨q, d', addTaskToActorQueue_actorPathStep hq, hd', Eq.refl _⟩
    · rw [giveTaskToLocalScheduler_eq h]
      exact .inl ⟨ActorsStep.rfl, ⟨[], .refl _, rfl⟩, fun i => by simp⟩

theorem handleActorTaskSubmitted_actorPathStep {spec : TaskSpec n} {size : Int}
    (h : handleActorTaskSubmitted s spec size = some r) :
    ActorPathStep (· ⊆ ActorOpKind.taskOps spec.actorId) s r := by
  rcases handleActorTaskSubmitted_cases h with h | h
  · exact h.mono fun _ h => h ▸ List.nil_subset _
  · exact h.actorPathStep.mono fun _ => ActorOpKind.thenDispatch_subset_taskOps

theorem replayCachedActorTasks_actorPathStep :
    ∀ {k i : Nat} {s : LocalSchedulerState n} {r : LocalSchedulerState n × List (Effect n)},
      replayCachedActorTasks k i s = some r →
        ActorPathStep (fun ks => ∀ p ∈ ks, p ∈ ActorOpKind.taskOps p.1) s r
  | 0, _, _, _, h => Option.some.inj h ▸ ActorPathStep.rfl (by simp)
  | k + 1, i, s, r, h => by
    simp only [replayCachedActorTasks, Option.bind_eq_bind, Option.bind_eq_some, Option.pure_def,
      Option.some.injEq] at h
    obtain ⟨spec, -, size, -, q, hq, q', hq', rfl⟩ := h
    refine ((handleActorTaskSubmitted_actorPathStep hq).trans
      (replayCachedActorTasks_actorPathStep hq')).mono ?_
    rintro _ ⟨ks₁, ks₂, rfl, h₁, h₂⟩ p hp
    rcases List.mem_append.1 hp with hp | hp
    · have := h₁ hp
      simp only [ActorOpKind.taskOps, List.mem_cons, List.mem_singleton, List.not_mem_nil,
        or_false] at this ⊢
      rcases this with rfl | rfl | rfl <;> simp
    · exact h₂ p hp

theorem handleActorCreationNotification_actorPathStep {A : ActorID}
    (h : handleActorCreationNotification s A = some r) :
    ActorPathStep (fun ks => ∀ p ∈ ks, p ∈ ActorOpKind.taskOps p.1) s r := by
  simp only [handleActorCreationNotification, check_bind, Option.ite_none_right_eq_some,
    Option.bind_eq_bind, Option.bind_eq_some, Option.pure_def, Option.some.injEq] at h
  obtain ⟨-, q, hq, rfl⟩ := h
  have h' := replayCachedActorTasks_actorPathStep hq
  exact ⟨h'.1.trans (ActorsStep.of_eq rfl le_rfl), h'.2, h'.3⟩

theorem handleActorTaskScheduled_dispatchesAfter {spec : TaskSpec n} {size : Int}
    (h : handleActorTaskScheduled s spec size = some r) :
    DispatchesAfter (· ⊆ [(spec.actorId, .create none), (spec.actorId, .insert)])
      spec.actorId s r := by
  simp only [handleActorTaskScheduled, check_bind, Option.ite_none_right_eq_some,
    Option.bind_eq_bind, Option.bind_eq_some, Option.pure_def, Option.some.injEq] at h
  obtain ⟨-, -, -, -, q, hq, d, hd, rfl⟩ := h
  exact ⟨q, d, addTaskToActorQueue_actorPathStep hq, hd, Eq.refl _⟩

end Refinement

end LocalScheduler
