import LocalScheduler.Actors

/-!
# Events and runs

The scheduler is single-threaded: one event loop calls one handler at a time, and each runs
to completion. `Event` lists what the loop hands to the core (the public surface of the
algorithm) together with the changes of the collaborators' state that the core reads: the
resources a worker gives back or takes again around the worker events, a new entry of
`actor_mapping`, the object store connection and the number of child processes.

`handleEvent` is one step, `runEvents` a run with its trace of events and collaborator
calls, and `Reachable` the states a run reaches from `SchedulingAlgorithmState_init`, whatever
the collaborators' state is then.
-/

namespace LocalScheduler

variable {n : Nat}

/-- The events of the scheduler's event loop. -/
inductive Event (n : Nat) where
  /-- A client submitted a regular task (the caller sends actor tasks to
  `actorTaskSubmitted`). -/
  | taskSubmitted (spec : TaskSpec n) (taskSpecSize : Int) (regular : spec.actorId = nilActorId)
  | actorTaskSubmitted (spec : TaskSpec n) (taskSpecSize : Int)
  /-- The global scheduler placed a regular task here. -/
  | taskScheduled (spec : TaskSpec n) (taskSpecSize : Int) (regular : spec.actorId = nilActorId)
  | actorTaskScheduled (spec : TaskSpec n) (taskSpecSize : Int)
  | actorCreationNotification (actorId : ActorID)
  /-- A regular worker is free; `released` is what its finished task gives back (zero for a
  worker that has just connected). The caller sends an actor's worker to
  `actorWorkerAvailable`. -/
  | workerAvailable (worker : LocalSchedulerClient) (released : Fin n → ℚ)
      (regular : worker.actorId = nilActorId)
  | workerRemoved (worker : LocalSchedulerClient)
  /-- A worker blocks on an object, giving back `released`. -/
  | workerBlocked (worker : LocalSchedulerClient) (released : Fin n → ℚ)
  /-- A blocked worker resumes, taking `reacquired` again. -/
  | workerUnblocked (worker : LocalSchedulerClient) (reacquired : Fin n → ℚ)
  | actorWorkerAvailable (worker : LocalSchedulerClient)
  /-- An actor's worker registered; the caller passes `worker->actor_id` as the actor. -/
  | actorWorkerConnect (worker : LocalSchedulerClient)
  | actorWorkerDisconnect (actorId : ActorID)
  | objectAvailable (objectId : ObjectID)
  | objectRemoved (objectId : ObjectID)
  | driverRemoved (driverId : WorkerID)
  | fetchTimeout
  /-- The actor table says where a new actor lives (recorded once per actor). -/
  | actorMappingAdded (actorId : ActorID) (localSchedulerId : DBClientID)
  | plasmaConnection (connected : Bool)
  | childPids (count : Nat)

/-- Add `r` to the dynamic resources. -/
def LocalSchedulerState.creditResources (s : LocalSchedulerState n) (r : Fin n → ℚ) :
    LocalSchedulerState n :=
  { s with dynamicResources := fun i => s.dynamicResources i + r i }

/-- Take `r` from the dynamic resources. -/
def LocalSchedulerState.debitResources (s : LocalSchedulerState n) (r : Fin n → ℚ) :
    LocalSchedulerState n :=
  { s with dynamicResources := fun i => s.dynamicResources i - r i }

/-- The operations on actor records that the handler of an event may do, in order. -/
def Event.actorOps : Event n → List (ActorID × ActorOpKind) → Prop
  | .actorTaskSubmitted spec _ => (· ⊆ ActorOpKind.taskOps spec.actorId)
  | .actorTaskScheduled spec _ => (· ⊆ ActorOpKind.taskOps spec.actorId)
  | .actorCreationNotification _ => fun ks => ∀ p ∈ ks, p ∈ ActorOpKind.taskOps p.1
  | .actorWorkerAvailable w =>
    ActorOpKind.thenDispatch w.actorId (· = [(w.actorId, .available)])
  | .actorWorkerConnect w => ActorOpKind.thenDispatch w.actorId
    (fun ks => ks = [(w.actorId, .create (some w))] ∨ ks = [(w.actorId, .connect w)])
  | .actorWorkerDisconnect actorId => (· = [(actorId, .remove)])
  | _ => fun _ => False

/-- The events of the regular path's own handlers: the dependency tracker's. -/
def Event.regular : Event n → Bool
  | .taskSubmitted .. | .taskScheduled .. | .objectAvailable _ | .objectRemoved _
  | .driverRemoved _ | .fetchTimeout => true
  | _ => false

/-- The events of the actor path's handlers. -/
def Event.actorPath : Event n → Bool
  | .actorTaskSubmitted .. | .actorTaskScheduled .. | .actorCreationNotification _
  | .actorWorkerAvailable _ | .actorWorkerConnect _ | .actorWorkerDisconnect _ => true
  | _ => false

/-- One step of the event loop. -/
def handleEvent (s : LocalSchedulerState n) : Event n → Option (LocalSchedulerState n × List (Effect n))
  | .taskSubmitted spec size _ => handleTaskSubmitted s spec size
  | .actorTaskSubmitted spec size => handleActorTaskSubmitted s spec size
  | .taskScheduled spec size _ => handleTaskScheduled s spec size
  | .actorTaskScheduled spec size => handleActorTaskScheduled s spec size
  | .actorCreationNotification actorId => handleActorCreationNotification s actorId
  | .workerAvailable worker released _ => handleWorkerAvailable (s.creditResources released) worker
  | .workerRemoved worker => handleWorkerRemoved s worker
  | .workerBlocked worker released => handleWorkerBlocked (s.creditResources released) worker
  | .workerUnblocked worker reacquired => handleWorkerUnblocked (s.debitResources reacquired) worker
  | .actorWorkerAvailable worker => handleActorWorkerAvailable s worker
  | .actorWorkerConnect worker => handleActorWorkerConnect s worker.actorId worker
  | .actorWorkerDisconnect actorId => handleActorWorkerDisconnect s actorId
  | .objectAvailable objectId => handleObjectAvailable s objectId
  | .objectRemoved objectId => handleObjectRemoved s objectId
  | .driverRemoved driverId => handleDriverRemoved s driverId
  | .fetchTimeout => some (s, fetchObjectTimeoutHandler s)
  | .actorMappingAdded actorId localSchedulerId => do
    check ((s.actorMapping actorId).isNone = true)
    pure ({ s with actorMapping := Function.update s.actorMapping actorId (some localSchedulerId) }, [])
  | .plasmaConnection connected => some ({ s with plasmaConnected := connected }, [])
  | .childPids count => some ({ s with numChildPids := count }, [])

/-! ## What one step can do -/

section Step

open LocalSchedulerState

variable {s : LocalSchedulerState n} {e : Event n} {r : LocalSchedulerState n × List (Effect n)}

@[simp] theorem LocalSchedulerState.creditResources_algorithmState (R : Fin n → ℚ) :
    (s.creditResources R).algorithmState = s.algorithmState := rfl

@[simp] theorem LocalSchedulerState.debitResources_algorithmState (R : Fin n → ℚ) :
    (s.debitResources R).algorithmState = s.algorithmState := rfl

/-- Every event goes down the regular path (a tracker step, then maybe a dispatch), down the
actor path, to one of the four worker handlers once the resources have changed as the event
says, or changes only the collaborators' state. -/
theorem handleEvent_cases (h : handleEvent s e = some r) :
    ((∀ ks, ¬ e.actorOps ks) ∧ e.regular = true ∧
      ∃ q, TrackerStep s q ∧
        ((r = q ∧ List.Sublist q.1.algorithmState.dispatchTaskQueue s.algorithmState.dispatchTaskQueue) ∨
          r = ((dispatchTasks q.1).1, q.2 ++ (dispatchTasks q.1).2))) ∨
      ActorPathStep e.actorOps s r ∨
      (∃ w R hw, e = .workerAvailable w R hw ∧
        handleWorkerAvailable (s.creditResources R) w = some r) ∨
      (∃ w, e = .workerRemoved w ∧ handleWorkerRemoved s w = some r) ∨
      (∃ w R, e = .workerBlocked w R ∧ handleWorkerBlocked (s.creditResources R) w = some r) ∨
      (∃ w R, e = .workerUnblocked w R ∧ handleWorkerUnblocked (s.debitResources R) w = some r) ∨
      ((∀ ks, ¬ e.actorOps ks) ∧ r.1.algorithmState = s.algorithmState ∧
        r.1.dynamicResources = s.dynamicResources ∧ r.2 = [] ∧ r.1.nextAddress = s.nextAddress) := by
  cases e with
  | taskSubmitted spec size _ =>
    obtain ⟨q, hq, rfl⟩ := handleTaskSubmitted_shape h
    exact .inl ⟨fun _ => id, rfl, q, hq, .inr rfl⟩
  | taskScheduled spec size _ =>
    obtain ⟨q, hq, rfl⟩ := handleTaskScheduled_shape h
    exact .inl ⟨fun _ => id, rfl, q, hq, .inr rfl⟩
  | objectAvailable o =>
    obtain ⟨s', hs', ⟨rfl, hd⟩ | rfl⟩ := handleObjectAvailable_shape h
    · exact .inl
        ⟨fun _ => id, rfl, (s', []), ⟨hs', rfl⟩, .inl ⟨rfl, hd ▸ List.Sublist.refl _⟩⟩
    · exact .inl ⟨fun _ => id, rfl, (s', []), ⟨hs', rfl⟩, .inr rfl⟩
  | objectRemoved o => exact .inl ⟨fun _ => id, rfl, r, handleObjectRemoved_trackerStep h,
      .inl ⟨rfl, handleObjectRemoved_dispatch_sublist h⟩⟩
  | driverRemoved d => exact .inl ⟨fun _ => id, rfl, r, handleDriverRemoved_trackerStep h,
      .inl ⟨rfl, handleDriverRemoved_dispatch_sublist h⟩⟩
  | fetchTimeout =>
    cases h
    exact .inl ⟨fun _ => id, rfl, _, fetchObjectTimeoutHandler_trackerStep s,
      .inl ⟨rfl, List.Sublist.refl _⟩⟩
  | actorTaskSubmitted spec size => exact .inr (.inl (handleActorTaskSubmitted_actorPathStep h))
  | actorTaskScheduled spec size =>
    exact .inr (.inl ((handleActorTaskScheduled_dispatchesAfter h).actorPathStep.mono
      fun _ => ActorOpKind.thenDispatch_subset_taskOps))
  | actorCreationNotification A =>
    exact .inr (.inl (handleActorCreationNotification_actorPathStep (A := A) h))
  | actorWorkerAvailable w =>
    exact .inr (.inl (handleActorWorkerAvailable_dispatchesAfter h).actorPathStep)
  | actorWorkerConnect w =>
    exact .inr (.inl (handleActorWorkerConnect_dispatchesAfter rfl h).actorPathStep)
  | actorWorkerDisconnect A => exact .inr (.inl (handleActorWorkerDisconnect_actorPathStep h))
  | workerAvailable w R hw => exact .inr (.inr (.inl ⟨w, R, hw, rfl, h⟩))
  | workerRemoved w => exact .inr (.inr (.inr (.inl ⟨w, rfl, h⟩)))
  | workerBlocked w R => exact .inr (.inr (.inr (.inr (.inl ⟨w, R, rfl, h⟩))))
  | workerUnblocked w R => exact .inr (.inr (.inr (.inr (.inr (.inl ⟨w, R, rfl, h⟩)))))
  | actorMappingAdded A d =>
    simp only [handleEvent, check_bind, Option.pure_def, Option.ite_none_right_eq_some,
      Option.some.injEq] at h
    obtain ⟨-, rfl⟩ := h
    exact .inr (.inr (.inr (.inr (.inr (.inr ⟨fun _ => id, rfl, rfl, rfl, rfl⟩)))))
  | plasmaConnection c =>
    cases h
    exact .inr (.inr (.inr (.inr (.inr (.inr ⟨fun _ => id, rfl, rfl, rfl, rfl⟩)))))
  | childPids k =>
    cases h
    exact .inr (.inr (.inr (.inr (.inr (.inr ⟨fun _ => id, rfl, rfl, rfl, rfl⟩)))))

/-- A step off the actor path leaves the actor records alone, and hands tasks only to workers
it leaves executing. -/
theorem handleEvent_actorRecords (h : handleEvent s e = some r) :
    ((∀ ks, ¬ e.actorOps ks) ∧
      r.1.algorithmState.localActorInfos = s.algorithmState.localActorInfos ∧
      ∀ p ∈ assignments r.2, p.2 ∈ r.1.algorithmState.executingWorkers) ∨
      ActorPathStep e.actorOps s r := by
  have hdispatch : ∀ s₁ : LocalSchedulerState n, ∀ p ∈ assignments (dispatchTasks s₁).2,
      p.2 ∈ (dispatchTasks s₁).1.algorithmState.executingWorkers :=
    fun s₁ p hp => dispatchTasks_assigned_executing s₁ (List.mem_map_of_mem _ hp)
  rcases handleEvent_cases h with ⟨hno, -, q, hq, ⟨rfl, -⟩ | rfl⟩ | hr | ⟨w, R, -, rfl, h⟩ |
    ⟨w, rfl, h⟩ | ⟨w, R, rfl, h⟩ | ⟨w, R, rfl, h⟩ | ⟨hno, ha, -, hc, -⟩
  · exact .inl ⟨hno, hq.queues.actors.infos, by simp [hq.assignments_eq]⟩
  · refine .inl ⟨hno, (dispatchTasks_localActorInfos _).trans hq.queues.actors.infos, ?_⟩
    simpa [hq.assignments_eq] using hdispatch q.1
  · exact .inr hr
  · obtain ⟨s₁, h₁, rfl⟩ := handleWorkerAvailable_poolsStep h
    exact .inl
      ⟨fun _ => id, (dispatchTasks_localActorInfos _).trans h₁.actors.infos, hdispatch s₁⟩
  · obtain ⟨h₁, hc⟩ := handleWorkerRemoved_poolsStep h
    exact .inl ⟨fun _ => id, h₁.actors.infos, by simp [hc]⟩
  · obtain ⟨s₁, h₁, rfl⟩ := handleWorkerBlocked_poolsStep h
    exact .inl
      ⟨fun _ => id, (dispatchTasks_localActorInfos _).trans h₁.actors.infos, hdispatch s₁⟩
  · obtain ⟨h₁, hc⟩ := handleWorkerUnblocked_poolsStep h
    exact .inl ⟨fun _ => id, h₁.actors.infos, by simp [hc]⟩
  · exact .inl ⟨hno, congrArg _ ha, by simp [hc]⟩

end Step

/-- What a run shows: the events in order, each followed by the calls its handler made. -/
inductive Observation (n : Nat) where
  | event (e : Event n)
  | call (c : Effect n)

/-- Run the events in order; `none` if a handler fails. -/
def runEvents :
    LocalSchedulerState n → List (Event n) → Option (LocalSchedulerState n × List (Observation n))
  | s, [] => some (s, [])
  | s, e :: es => do
    let r ← handleEvent s e
    let r' ← runEvents r.1 es
    pure (r'.1, .event e :: r.2.map .call ++ r'.2)

/-- The states the scheduler reaches from `SchedulingAlgorithmState_init`. -/
inductive Reachable : LocalSchedulerState n → Prop
  | init {s : LocalSchedulerState n} : s.algorithmState = SchedulingAlgorithmState.init n → Reachable s
  | step {s s' : LocalSchedulerState n} {e : Event n} {calls : List (Effect n)} :
      Reachable s → handleEvent s e = some (s', calls) → Reachable s'

theorem runEvents_reachable :
    ∀ {s : LocalSchedulerState n} {es : List (Event n)} {r : LocalSchedulerState n × List (Observation n)},
      Reachable s → runEvents s es = some r → Reachable r.1
  | _, [], _, hs, h => by
    cases h
    exact hs
  | _, e :: es, _, hs, h => by
    simp only [runEvents, Option.bind_eq_bind, Option.bind_eq_some, Option.pure_def,
      Option.some.injEq] at h
    obtain ⟨r, hr, r', hr', rfl⟩ := h
    have h := runEvents_reachable (hs.step hr) hr'
    exact h

end LocalScheduler
