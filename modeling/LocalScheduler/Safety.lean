import LocalScheduler.Conservation

/-!
# What the handlers can do to the pools, and where they can fail

The handlers `CHECK` and `DCHECK` what they assume. Some of those checks test what the caller
reports (a worker reported available twice, a task placed here with no global scheduler);
the others test the handlers' own bookkeeping. Which of them can fail, and when? And which
part of the state may a handler of one path touch?

* `worker_events_fail_iff` — from every reachable state, each worker event faults exactly
  when the report contradicts the pools (or names an actor's worker for removal): the checks
  that a removed worker is gone and sat in at most one pool never fail, since no worker is in
  two pools or twice in one (`reachable_workerPoolsDisjoint`).
* `regular_path_fails_iff` — `handle_task_submitted` never faults, and
  `handle_task_scheduled` faults exactly without a database or a global scheduler: the
  `CHECK` of `fetch_missing_dependencies` that some argument is missing never fails, since
  `queue_task_locally` only queues a task that cannot run as waiting.
* `paths_separated` — the handlers of the actor path never write the worker pools, the task
  queues or the object tables, and the other handlers never write the actor records or the
  cached actor tasks.
* `worker_pool_ledger` — over every run, the pools hold exactly the workers whose last report
  (free or removed) said free.
* `tasks_go_to_own_workers` — from every reachable state, every task a step hands to a worker
  has that worker's actor: `dispatch_tasks` pairs the regular queue with the regular pool, and
  `dispatch_actor_task` an actor's queue with that actor's worker.
-/

namespace LocalScheduler

open LocalSchedulerState

variable {n : Nat}

/-! ## The worker handlers -/

/-- A worker removed from a pool of distinct workers is gone from it. -/
theorem not_mem_removeWorkerFromVector {v : List LocalSchedulerClient} (hv : v.Nodup)
    (w : LocalSchedulerClient) : w ∉ (removeWorkerFromVector v w).1 :=
  fun h => ((mem_removeWorkerFromVector hv).1 h).1 rfl

section Workers

variable {s : LocalSchedulerState n} (w : LocalSchedulerClient)

/-- A worker sits in at most one pool: at most one removal finds it. -/
theorem removed_flags_le_one (hs : WorkerPoolsDisjoint s) :
    (removeWorkerFromVector s.algorithmState.availableWorkers w).2.toNat +
      (removeWorkerFromVector s.algorithmState.executingWorkers w).2.toNat +
      (removeWorkerFromVector s.algorithmState.blockedWorkers w).2.toNat ≤ 1 := by
  obtain ⟨-, -, -, hAE, hAB, hEB⟩ := workerPoolsDisjoint_iff.1 hs
  simp only [removeWorkerFromVector_snd]
  by_cases hA : w ∈ s.algorithmState.availableWorkers <;>
    by_cases hE : w ∈ s.algorithmState.executingWorkers <;>
    by_cases hB : w ∈ s.algorithmState.blockedWorkers <;>
    simp only [hA, hE, hB, decide_True, decide_False, Bool.toNat_true, Bool.toNat_false] <;>
    first | omega | exact (hAE hA hE).elim | exact (hAB hA hB).elim | exact (hEB hE hB).elim

theorem handleWorkerAvailable_eq_none (hs : WorkerPoolsDisjoint s) :
    handleWorkerAvailable s w = none ↔
      w ∈ s.algorithmState.availableWorkers ∨ w ∈ s.algorithmState.blockedWorkers := by
  obtain ⟨-, hE, -⟩ := workerPoolsDisjoint_iff.1 hs
  simp only [handleWorkerAvailable, check_bind, not_mem_removeWorkerFromVector hE, not_false_eq_true,
    if_true, Option.pure_def, ite_eq_right_iff, reduceCtorEq, imp_false, not_not, or_iff_not_imp_left]

theorem handleWorkerRemoved_eq_none (hs : WorkerPoolsDisjoint s) :
    handleWorkerRemoved s w = none ↔ w.actorId ≠ nilActorId := by
  obtain ⟨hA, hE, hB, -⟩ := workerPoolsDisjoint_iff.1 hs
  simp only [handleWorkerRemoved, check_bind, not_mem_removeWorkerFromVector hA,
    not_mem_removeWorkerFromVector hE, not_mem_removeWorkerFromVector hB, removed_flags_le_one w hs,
    not_false_eq_true, if_true, Option.pure_def, ite_eq_right_iff, reduceCtorEq, imp_false]

theorem handleWorkerBlocked_eq_none (hs : WorkerPoolsDisjoint s) :
    handleWorkerBlocked s w = none ↔ w ∉ s.algorithmState.executingWorkers := by
  obtain ⟨-, -, -, -, -, hEB⟩ := workerPoolsDisjoint_iff.1 hs
  simp only [handleWorkerBlocked, check_bind, removeWorkerFromVector_snd, decide_eq_true_eq,
    Option.pure_def, ite_eq_right_iff, reduceCtorEq, imp_false, not_not]
  exact ⟨fun h hE => hEB hE (h hE), fun h hE => absurd hE h⟩

theorem handleWorkerUnblocked_eq_none (hs : WorkerPoolsDisjoint s) :
    handleWorkerUnblocked s w = none ↔ w ∉ s.algorithmState.blockedWorkers := by
  obtain ⟨-, -, -, -, -, hEB⟩ := workerPoolsDisjoint_iff.1 hs
  simp only [handleWorkerUnblocked, check_bind, removeWorkerFromVector_snd, decide_eq_true_eq,
    Option.pure_def, ite_eq_right_iff, reduceCtorEq, imp_false, not_not]
  exact ⟨fun h hB => hEB (h hB) hB, fun h hB => absurd hB h⟩

end Workers

/-! ## A run of two workers -/

/-- Two regular workers connect, and the first is removed. -/
def poolEvents : List (Event 1) :=
  [.workerAvailable ⟨7, nilActorId⟩ (fun _ => 0) rfl, .workerAvailable ⟨8, nilActorId⟩ (fun _ => 0) rfl,
    .workerRemoved ⟨7, nilActorId⟩]

/-- The end of that run. -/
def poolRun : LocalSchedulerState 1 × List (Observation 1) :=
  (runEvents trackerNode poolEvents).getD (trackerNode, [])

theorem runEvents_poolRun : runEvents trackerNode poolEvents = some poolRun := by
  with_unfolding_all rfl

/-- **The worker events fault only on a false report.** From every reachable state, whatever
resources the event gives back or takes: a worker reported available faults exactly when it
is already available or blocked; a removal exactly when the worker is an actor's; a worker
reported blocked exactly when it is not executing; and a worker reported unblocked exactly
when it is not blocked. The `CHECK`s on the pools after a removal never fail. -/
theorem worker_events_fail_iff (s : LocalSchedulerState n) (hs : Reachable s)
    (w : LocalSchedulerClient) (R : Fin n → ℚ) :
    (∀ hw : w.actorId = nilActorId, handleEvent s (.workerAvailable w R hw) = none ↔
      w ∈ s.algorithmState.availableWorkers ∨ w ∈ s.algorithmState.blockedWorkers) ∧
    (handleEvent s (.workerRemoved w) = none ↔ w.actorId ≠ nilActorId) ∧
    (handleEvent s (.workerBlocked w R) = none ↔ w ∉ s.algorithmState.executingWorkers) ∧
    (handleEvent s (.workerUnblocked w R) = none ↔ w ∉ s.algorithmState.blockedWorkers) :=
  have h := reachable_workerPoolsDisjoint hs
  ⟨fun _ => handleWorkerAvailable_eq_none (s := s.creditResources R) w h,
    handleWorkerRemoved_eq_none w h, handleWorkerBlocked_eq_none (s := s.creditResources R) w h,
    handleWorkerUnblocked_eq_none (s := s.debitResources R) w h⟩

theorem worker_events_fail_iff_poolRun :
    Reachable poolRun.1 ∧
    ((∀ hw : (⟨8, nilActorId⟩ : LocalSchedulerClient).actorId = nilActorId,
        handleEvent poolRun.1 (.workerAvailable ⟨8, nilActorId⟩ (fun _ => 0) hw) = none ↔
          ⟨8, nilActorId⟩ ∈ poolRun.1.algorithmState.availableWorkers ∨
          ⟨8, nilActorId⟩ ∈ poolRun.1.algorithmState.blockedWorkers) ∧
      (handleEvent poolRun.1 (.workerRemoved ⟨8, nilActorId⟩) = none ↔
        (⟨8, nilActorId⟩ : LocalSchedulerClient).actorId ≠ nilActorId) ∧
      (handleEvent poolRun.1 (.workerBlocked ⟨8, nilActorId⟩ fun _ => 0) = none ↔
        ⟨8, nilActorId⟩ ∉ poolRun.1.algorithmState.executingWorkers) ∧
      (handleEvent poolRun.1 (.workerUnblocked ⟨8, nilActorId⟩ fun _ => 0) = none ↔
        ⟨8, nilActorId⟩ ∉ poolRun.1.algorithmState.blockedWorkers)) :=
  have h : Reachable poolRun.1 := runEvents_reachable (.init rfl) runEvents_poolRun
  ⟨h, worker_events_fail_iff poolRun.1 h ⟨8, nilActorId⟩ fun _ => 0⟩

/-- Worker `8` is available: reporting it free again faults, and its removal passes the
checks on the pools. -/
example : (handleEvent poolRun.1 (.workerAvailable ⟨8, nilActorId⟩ (fun _ => 0) rfl)).isNone ∧
    (handleEvent poolRun.1 (.workerRemoved ⟨8, nilActorId⟩)).isSome := by
  with_unfolding_all decide

/-! ## The regular path -/

section Regular

variable (s : LocalSchedulerState n) (spec : TaskSpec n) (size : Int) (g : Bool)

/-- `queue_task_locally` queues as waiting only a task that cannot run, which misses some
argument: the `CHECK` of `fetch_missing_dependencies` holds. -/
theorem queueTaskLocally_isSome : (queueTaskLocally s spec size g).isSome := by
  unfold queueTaskLocally
  split
  · rfl
  · rename_i hrun
    obtain ⟨o, ho, hLo⟩ := canRun_eq_false_iff.1 (Bool.of_not_eq_true hrun)
    have hmiss : 0 < (spec.refIds.filter fun o => !s.algorithmState.localObjects o).length :=
      List.length_pos_of_mem (List.mem_filter.2 ⟨ho, by rw [hLo]; rfl⟩)
    simp only [queueWaitingTask, fetchMissingDependencies, check_bind, hmiss, if_true,
      Option.bind_eq_bind, Option.pure_def, Option.some_bind, Option.isSome_some]

theorem giveTaskToGlobalScheduler_isSome : (giveTaskToGlobalScheduler s spec size).isSome := by
  unfold giveTaskToGlobalScheduler
  split
  · exact queueTaskLocally_isSome s spec size false
  · rfl

end Regular

/-- **The regular path faults only without a global scheduler.** From every state,
`handle_task_submitted` returns, and `handle_task_scheduled` faults exactly when the scheduler
has no database or no global scheduler: the `CHECK` of `fetch_missing_dependencies` that the
task misses an argument never fails. -/
theorem regular_path_fails_iff (s : LocalSchedulerState n) (spec : TaskSpec n) (size : Int) :
    handleTaskSubmitted s spec size ≠ none ∧
    (handleTaskScheduled s spec size = none ↔ s.db = none ∨ s.globalSchedulerExists = false) := by
  constructor
  · obtain ⟨r, hr⟩ : ∃ r, (if resourceConstraintsSatisfied s spec &&
        !s.algorithmState.availableWorkers.isEmpty && canRun s.algorithmState spec then
        some (queueDispatchTask s spec size false) else giveTaskToGlobalScheduler s spec size) = some r := by
      split
      · exact ⟨_, rfl⟩
      · exact Option.isSome_iff_exists.1 (giveTaskToGlobalScheduler_isSome s spec size)
    simp only [handleTaskSubmitted, hr, Option.bind_eq_bind, Option.some_bind, Option.pure_def, ne_eq,
      reduceCtorEq, not_false_eq_true]
  · obtain ⟨r, hr⟩ := Option.isSome_iff_exists.1 (queueTaskLocally_isSome s spec size true)
    cases hdb : s.db <;> cases hg : s.globalSchedulerExists <;>
      simp only [handleTaskScheduled, check_bind, hdb, hg, hr, Option.isSome_none, Option.isSome_some,
        Bool.false_eq_true, if_false, if_true, Option.bind_eq_bind, Option.some_bind, Option.pure_def,
        reduceCtorEq, or_true, or_false, true_or, iff_true, iff_false, not_false_eq_true]

/-! ## The two paths -/

section Paths

variable {s s' : LocalSchedulerState n}

theorem SameRegular.of_algorithmState (h : s'.algorithmState = s.algorithmState) :
    SameRegular s s' :=
  ⟨⟨congrArg (·.availableWorkers) h, congrArg (·.executingWorkers) h, congrArg (·.blockedWorkers) h⟩,
    congrArg (·.waitingTaskQueue) h, congrArg (·.dispatchTaskQueue) h, congrArg (·.localObjects) h,
    congrArg (·.remoteObjects) h⟩

theorem SameActors.of_algorithmState (h : s'.algorithmState = s.algorithmState) :
    SameActors s s' :=
  ⟨congrArg (·.localActorInfos) h, congrArg (·.cachedSubmittedActorTasks) h,
    congrArg (·.cachedSubmittedActorTaskSizes) h⟩

theorem SameActors.dispatchTasks (s : LocalSchedulerState n) :
    SameActors s (LocalScheduler.dispatchTasks s).1 :=
  ⟨dispatchTasks_localActorInfos s, dispatchTasks_cachedSubmittedActorTasks s,
    dispatchTasks_cachedSubmittedActorTaskSizes s⟩

/-- A worker handler, run after the resources changed, then dispatching, leaves the actor
records and the cached actor tasks alone. -/
theorem SameActors.of_poolsStep_dispatch {s₁ : LocalSchedulerState n} {R : Fin n → ℚ}
    (h : PoolsStep (s.creditResources R) s₁) : SameActors s (LocalScheduler.dispatchTasks s₁).1 :=
  SameActors.trans ⟨h.actors.infos, h.actors.cached, h.actors.cachedSizes⟩ (SameActors.dispatchTasks s₁)

end Paths

/-- **The two paths never write each other's state.** From any state, an event of the actor
path that returns leaves the worker pools, both task queues and the object tables as they
were; any other event that returns leaves the actor records and the cached actor tasks as they
were. -/
theorem paths_separated (s : LocalSchedulerState n) (e : Event n)
    (r : LocalSchedulerState n × List (Effect n)) (h : handleEvent s e = some r) :
    if e.actorPath then SameRegular s r.1 else SameActors s r.1 := by
  rcases handleEvent_cases h with ⟨-, hreg, q, hq, hr⟩ | hr | ⟨w, R, -, rfl, h⟩ |
    ⟨w, rfl, h⟩ | ⟨w, R, rfl, h⟩ | ⟨w, R, rfl, h⟩ | ⟨-, ha, -, -, -⟩
  · rw [if_neg (by cases e <;> first | exact Bool.false_ne_true | cases hreg)]
    rcases hr with ⟨rfl, -⟩ | rfl
    · exact hq.queues.actors
    · exact hq.queues.actors.trans (SameActors.dispatchTasks q.1)
  · obtain ⟨ks, -, hks⟩ := hr.records
    rw [if_pos (by cases e <;> first | rfl | exact False.elim hks)]
    exact hr.frame.regular
  · obtain ⟨s₁, h₁, rfl⟩ := handleWorkerAvailable_poolsStep h
    exact SameActors.of_poolsStep_dispatch h₁
  · exact (handleWorkerRemoved_poolsStep h).1.actors
  · obtain ⟨s₁, h₁, rfl⟩ := handleWorkerBlocked_poolsStep h
    exact SameActors.of_poolsStep_dispatch h₁
  · exact ⟨(handleWorkerUnblocked_poolsStep h).1.actors.infos,
      (handleWorkerUnblocked_poolsStep h).1.actors.cached,
      (handleWorkerUnblocked_poolsStep h).1.actors.cachedSizes⟩
  · split
    · exact SameRegular.of_algorithmState ha
    · exact SameActors.of_algorithmState ha

/-- A task of actor `5` creates the actor's record and waits in its queue, leaving the regular
state alone; a regular task on two missing objects waits, leaving the actor state alone. -/
theorem paths_separated_bothPaths :
    (∃ r, handleEvent actorFiveNode (.actorTaskSubmitted (actorFiveTask 0) 0) = some r ∧
      actorFiveNode.algorithmState.localActorInfos 5 = none ∧
      ((r.1.algorithmState.localActorInfos 5).map fun info => info.taskQueue.length) = some 1 ∧
      SameRegular actorFiveNode r.1) ∧
    ∃ r, handleEvent trackerNode (.taskScheduled twoArgTask 0 rfl) = some r ∧
      trackerNode.algorithmState.waitingTaskQueue = [] ∧
      r.1.algorithmState.waitingTaskQueue.length = 1 ∧ SameActors trackerNode r.1 :=
  ⟨⟨_, rfl, rfl, by decide, paths_separated actorFiveNode (.actorTaskSubmitted (actorFiveTask 0) 0) _ rfl⟩,
    ⟨_, rfl, rfl, by decide, paths_separated trackerNode (.taskScheduled twoArgTask 0 rfl) _ rfl⟩⟩

/-! ## Which workers the pools hold -/

/-- What the event reports about the regular worker `w`: free (`true`), removed (`false`), or
nothing. -/
def Event.workerReport (w : LocalSchedulerClient) : Event n → Option Bool
  | .workerAvailable w' _ _ => if w' = w then some true else none
  | .workerRemoved w' => if w' = w then some false else none
  | _ => none

/-- Whether the last report about `w` among `es` said it is free; `b` if there is none. -/
def reportedFree (w : LocalSchedulerClient) (b : Bool) (es : List (Event n)) : Bool :=
  es.foldl (fun b e => (e.workerReport w).getD b) b

section Ledger

variable {s : LocalSchedulerState n} {e : Event n} {r : LocalSchedulerState n × List (Effect n)}
  (w : LocalSchedulerClient)

theorem mem_workerPools {a : SchedulingAlgorithmState n} :
    w ∈ a.workerPools ↔ w ∈ a.availableWorkers ∨ w ∈ a.executingWorkers ∨ w ∈ a.blockedWorkers := by
  simp only [SchedulingAlgorithmState.workerPools, List.mem_append, or_assoc]

/-- The four events that report on a regular worker. -/
def Event.aboutWorker : Event n → Bool
  | .workerAvailable .. | .workerRemoved _ | .workerBlocked .. | .workerUnblocked .. => true
  | _ => false

/-- The other events hold the same workers in the pools. -/
theorem handleEvent_workerPools_perm (h : handleEvent s e = some r) (he : e.aboutWorker = false) :
    r.1.algorithmState.workerPools.Perm s.algorithmState.workerPools := by
  rcases handleEvent_cases h with ⟨-, -, q, hq, ⟨rfl, -⟩ | rfl⟩ | hr | ⟨w', R, _, rfl, -⟩ |
    ⟨w', rfl, -⟩ | ⟨w', R, rfl, -⟩ | ⟨w', R, rfl, -⟩ | ⟨-, ha, -, -, -⟩
  · rw [hq.queues.pools.workerPools_eq]
  · exact (dispatchTasks_workerPools_perm _).trans (hq.queues.pools.workerPools_eq ▸ List.Perm.refl _)
  · rw [hr.frame.regular.pools.workerPools_eq]
  all_goals first | cases he | rw [ha]

/-- A step puts `w` in the pools exactly when its event reports `w` free, takes it out exactly
when its event removes `w`, and otherwise leaves it where it was. -/
theorem handleEvent_mem_workerPools (hs : WorkerPoolsDisjoint s) (h : handleEvent s e = some r) :
    w ∈ r.1.algorithmState.workerPools ↔
      (e.workerReport w).getD (decide (w ∈ s.algorithmState.workerPools)) = true := by
  obtain ⟨hA, hE, hB, -, -, hEB⟩ := workerPoolsDisjoint_iff.1 hs
  cases e
  case workerAvailable w' R _ =>
    obtain ⟨-, -, -, rfl⟩ := handleWorkerAvailable_eq_some.1 h
    rw [(dispatchTasks_workerPools_perm _).mem_iff]
    by_cases hw : w' = w
    · subst hw
      simp [Event.workerReport, mem_workerPools]
    · simp only [Event.workerReport, hw, if_false, Option.getD_none, decide_eq_true_iff, mem_workerPools,
        creditResources_algorithmState, List.mem_append, List.mem_singleton, mem_removeWorkerFromVector hE,
        Ne.symm hw, ne_eq, not_false_eq_true, true_and, or_false]
  case workerRemoved w' =>
    obtain ⟨-, -, -, -, -, rfl⟩ := handleWorkerRemoved_eq_some.1 h
    by_cases hw : w' = w
    · subst hw
      simp [Event.workerReport, mem_workerPools, mem_removeWorkerFromVector hA,
        mem_removeWorkerFromVector hE, mem_removeWorkerFromVector hB]
    · simp only [Event.workerReport, hw, if_false, Option.getD_none, decide_eq_true_iff, mem_workerPools,
        mem_removeWorkerFromVector hA, mem_removeWorkerFromVector hE, mem_removeWorkerFromVector hB,
        Ne.symm hw, ne_eq, not_false_eq_true, true_and]
  case workerBlocked w' R =>
    obtain ⟨he, -, rfl⟩ := handleWorkerBlocked_eq_some.1 h
    rw [creditResources_algorithmState] at he
    rw [(dispatchTasks_workerPools_perm _).mem_iff]
    simp only [Event.workerReport, Option.getD_none, decide_eq_true_iff, mem_workerPools,
      creditResources_algorithmState, List.mem_append, List.mem_singleton, mem_removeWorkerFromVector hE]
    by_cases hw : w = w'
    · subst hw
      simp only [he, ne_eq, not_true_eq_false, false_and, or_true, true_or]
    · simp only [hw, ne_eq, not_false_eq_true, true_and, or_false]
  case workerUnblocked w' R =>
    obtain ⟨hb, -, rfl⟩ := handleWorkerUnblocked_eq_some.1 h
    rw [debitResources_algorithmState] at hb
    simp only [Event.workerReport, Option.getD_none, decide_eq_true_iff, mem_workerPools,
      debitResources_algorithmState, List.mem_append, List.mem_singleton, mem_removeWorkerFromVector hB]
    by_cases hw : w = w'
    · subst hw
      simp only [hb, ne_eq, not_true_eq_false, false_and, or_true, true_or]
    · simp only [hw, ne_eq, not_false_eq_true, true_and, or_false]
  all_goals exact (handleEvent_workerPools_perm h rfl).mem_iff.trans decide_eq_true_iff.symm

theorem runEvents_mem_workerPools :
    ∀ {s : LocalSchedulerState n} {es : List (Event n)} {r : LocalSchedulerState n × List (Observation n)},
      WorkerPoolsDisjoint s → runEvents s es = some r →
      (w ∈ r.1.algorithmState.workerPools ↔
        reportedFree w (decide (w ∈ s.algorithmState.workerPools)) es = true)
  | _, [], _, _, h => by
    cases h
    exact decide_eq_true_iff.symm
  | s, e :: es, r, hs, h => by
    simp only [runEvents, Option.bind_eq_bind, Option.bind_eq_some, Option.pure_def,
      Option.some.injEq] at h
    obtain ⟨q, hq, r', hr', rfl⟩ := h
    have hstep : decide (w ∈ q.1.algorithmState.workerPools) =
        (e.workerReport w).getD (decide (w ∈ s.algorithmState.workerPools)) :=
      Bool.eq_iff_iff.2 (decide_eq_true_iff.trans (handleEvent_mem_workerPools w hs hq))
    rw [runEvents_mem_workerPools (handleEvent_workerPoolsDisjoint hs hq) hr', hstep]
    rfl

end Ledger

/-- **Which workers the pools hold.** Over every run from `SchedulingAlgorithmState_init`, a
worker is in one of the three pools exactly when the last report about it, among the reports
that it is free and that it was removed, said it is free: the pools lose no worker and make
none up, and a removed worker stays out until it is reported free again. -/
theorem worker_pool_ledger (s : LocalSchedulerState n)
    (hs : s.algorithmState = SchedulingAlgorithmState.init n) (es : List (Event n))
    (r : LocalSchedulerState n × List (Observation n)) (h : runEvents s es = some r)
    (w : LocalSchedulerClient) :
    (w ∈ r.1.algorithmState.availableWorkers ∨ w ∈ r.1.algorithmState.executingWorkers ∨
        w ∈ r.1.algorithmState.blockedWorkers) ↔ reportedFree w false es = true := by
  have hinit : s.algorithmState.workerPools = [] := by
    rw [hs]
    rfl
  rw [← mem_workerPools, runEvents_mem_workerPools w (reachable_workerPoolsDisjoint (.init hs)) h, hinit]
  simp only [List.not_mem_nil, decide_False]

/-- Only the second worker is left, and it is available. -/
example : poolRun.1.algorithmState.availableWorkers = [⟨8, nilActorId⟩] ∧
    poolRun.1.algorithmState.executingWorkers = [] := by
  with_unfolding_all decide

theorem worker_pool_ledger_poolRun :
    runEvents trackerNode poolEvents = some poolRun ∧ ∀ w : LocalSchedulerClient,
      (w ∈ poolRun.1.algorithmState.availableWorkers ∨ w ∈ poolRun.1.algorithmState.executingWorkers ∨
        w ∈ poolRun.1.algorithmState.blockedWorkers) ↔ reportedFree w false poolEvents = true :=
  ⟨runEvents_poolRun, worker_pool_ledger trackerNode rfl poolEvents poolRun runEvents_poolRun⟩

/-! ## Which worker a task goes to -/

section Matching

variable {s : LocalSchedulerState n} {e : Event n} {r : LocalSchedulerState n × List (Effect n)}

theorem mem_assignments_of_mem {t : TaskQueueEntry n} {w : LocalSchedulerClient} :
    ∀ {calls : List (Effect n)}, .assignTaskToWorker t w ∈ calls → (t, w) ∈ assignments calls
  | c :: calls, h => by
    rcases List.mem_cons.1 h with rfl | h
    · exact List.mem_cons_self _ _
    · have ih := mem_assignments_of_mem h
      cases c <;> simp [ih]

/-- `dispatch_tasks` pairs tasks of the dispatch queue with workers of the available pool. -/
theorem dispatchTasks_pair_mem (s : LocalSchedulerState n) {t : TaskQueueEntry n}
    {w : LocalSchedulerClient} (h : (t, w) ∈ assignments (dispatchTasks s).2) :
    t ∈ s.algorithmState.dispatchTaskQueue ∧ w ∈ s.algorithmState.availableWorkers := by
  obtain ⟨A, hl⟩ := dispatchTasksLoop_spec s.algorithmState.dispatchTaskQueue s
  have hc : assignments (dispatchTasks s).2 = _ := hl.assignments_eq
  rw [hc] at h
  exact ⟨hl.interleave.mem_left (List.of_mem_zip h).1,
    List.mem_reverse.1 (List.mem_of_mem_take (List.of_mem_zip h).2)⟩

/-- From a regular dispatch queue and a regular pool, `dispatch_tasks` hands regular tasks to
regular workers. -/
theorem dispatchTasks_matched
    (hD : ∀ t ∈ s.algorithmState.dispatchTaskQueue, t.spec.actorId = nilActorId)
    (hA : ∀ w ∈ s.algorithmState.availableWorkers, w.actorId = nilActorId) :
    ∀ p ∈ assignments (dispatchTasks s).2, p.1.spec.actorId = p.2.actorId := fun _ hp =>
  (hD _ (dispatchTasks_pair_mem s hp).1).trans (hA _ (dispatchTasks_pair_mem s hp).2).symm

theorem PoolWorkersRegular.available (hp : PoolWorkersRegular s) :
    ∀ w ∈ s.algorithmState.availableWorkers, w.actorId = nilActorId :=
  fun w hw => hp w ((mem_workerPools w).2 (.inl hw))

/-- Queueing a regular task and then `dispatch_tasks`: the tail of `handle_task_submitted` and
`handle_task_scheduled`. -/
theorem QueuedFrom.dispatchTasks_matched {spec : TaskSpec n} {size : Int}
    {q : LocalSchedulerState n × List (Effect n)} {P Q : Prop}
    (h : QueuedFrom s spec size q P Q) (hq : TrackerStep s q) (hs : EntriesWF s)
    (hp : PoolWorkersRegular s) (hspec : spec.actorId = nilActorId) :
    ∀ p ∈ assignments (q.2 ++ (LocalScheduler.dispatchTasks q.1).2), p.1.spec.actorId = p.2.actorId := by
  obtain ⟨C, F, hC, -, hm⟩ := h
  rw [assignments_append, hq.assignments_eq, List.nil_append]
  refine LocalScheduler.dispatchTasks_matched (fun t ht => hm.forall_queued hs.regular (fun t ht => ?_) t
    (List.mem_append_right _ ht)) ?_
  · rw [List.mem_singleton.1 (hC.sublist.subset ht)]
    exact hspec
  · rw [hq.queues.pools.available]
    exact hp.available

/-- A dispatch hands out the head of its actor's queue. -/
theorem ActorOp.handOut_actorId {A : ActorID} {k : ActorOpKind} {o o' : Option (LocalActorInfo n)}
    {c : List (TaskQueueEntry n × LocalSchedulerClient)} (h : ActorOp A k o o' c)
    (ho : ∀ info ∈ o, info.QueueKeyed A) : ∀ p ∈ c, p.1.spec.actorId = A := by
  intro p hp
  cases h with
  | dispatch _ hq =>
    rw [List.mem_singleton.1 hp]
    exact ho _ rfl _ (hq ▸ List.mem_cons_self _ _)
  | create | insert | connect | available | remove => exact absurd hp (List.not_mem_nil _)

theorem ActorOps.handOuts_matched {ks : List (ActorID × ActorOpKind)}
    {I I' : ActorID → Option (LocalActorInfo n)} {c : List (TaskQueueEntry n × LocalSchedulerClient)}
    (h : ActorOps ks I I' c) (hq : ∀ A, ∀ info ∈ I A, info.QueueKeyed A) (hw : ActorWorkersKeyed I) :
    ∀ p ∈ c, p.1.spec.actorId = p.2.actorId := by
  induction h with
  | refl => exact List.forall_mem_nil _
  | @cons ks I I' A k o c c' hop _ ih =>
    intro p hp
    rcases List.mem_append.1 hp with hp | hp
    · rw [hop.handOut_actorId (hq A) p hp, ((hop.keyed (hw A)).2 p hp).1]
    · exact ih ((ActorOps.single hop).preserve (fun h ho => (h.queueKeyed ho).1) hq)
        ((ActorOps.single hop).preserve (P := fun A info => ∀ w ∈ info.worker, w.actorId = A)
          (fun h ho => (h.keyed ho).1) hw) p hp

theorem ActorPathStep.handOuts_matched {allowed : List (ActorID × ActorOpKind) → Prop}
    (hr : ActorPathStep allowed s r) (hq : ∀ A, ∀ info ∈ s.algorithmState.localActorInfos A,
      info.QueueKeyed A) (hw : ActorWorkersKeyed s.algorithmState.localActorInfos) :
    ∀ p ∈ assignments r.2, p.1.spec.actorId = p.2.actorId :=
  let ⟨_, hops, _⟩ := hr.records
  hops.handOuts_matched hq hw

/-- Every step hands each task to a worker of the task's actor, from a state whose queues and
pools are keyed as in every reachable state. -/
theorem handleEvent_handOuts_matched (hs : EntriesWF s)
    (hW : (s.algorithmState.waitingTaskQueue.map Prod.fst).Nodup) (hp : PoolWorkersRegular s)
    (hq : ∀ A, ∀ info ∈ s.algorithmState.localActorInfos A, info.QueueKeyed A)
    (hw : ActorWorkersKeyed s.algorithmState.localActorInfos) (h : handleEvent s e = some r) :
    ∀ p ∈ assignments r.2, p.1.spec.actorId = p.2.actorId := by
  have hnil : ∀ {calls : List (Effect n)}, assignments calls = [] →
      ∀ p ∈ assignments calls, p.1.spec.actorId = p.2.actorId :=
    fun hc => hc ▸ List.forall_mem_nil _
  cases e with
  | taskSubmitted spec size hspec =>
    simp only [handleEvent, handleTaskSubmitted, Option.bind_eq_bind, Option.bind_eq_some,
      Option.pure_def, Option.some.injEq] at h
    obtain ⟨q, hq', rfl⟩ := h
    split at hq'
    · cases hq'
      exact (queueDispatchTask_queuedFrom s spec size false (P := True) (Q := True)).dispatchTasks_matched
        (queueDispatchTask_trackerStep s spec size false) hs hp hspec
    · exact (giveTaskToGlobalScheduler_queuedFrom hq' (P := True) (Q := True)).dispatchTasks_matched
        (giveTaskToGlobalScheduler_trackerStep hq') hs hp hspec
  | taskScheduled spec size hspec =>
    simp only [handleEvent, handleTaskScheduled, check_bind, Option.bind_eq_bind,
      Option.bind_eq_some, Option.pure_def, Option.some.injEq, Option.ite_none_right_eq_some] at h
    obtain ⟨-, -, q, hq', rfl⟩ := h
    exact (queueTaskLocally_queuedFrom hq' (P := True) (Q := True)).dispatchTasks_matched
      (queueTaskLocally_trackerStep hq') hs hp hspec
  | objectAvailable O =>
    simp only [handleEvent, handleObjectAvailable, check_bind, Option.ite_none_right_eq_some] at h
    obtain ⟨-, h⟩ := h
    split at h
    · cases h
      exact List.forall_mem_nil _
    · simp only [Option.bind_eq_bind, Option.bind_eq_some, Option.pure_def, Option.some.injEq] at h
      obtain ⟨a', ha', rfl⟩ := h
      obtain ⟨M, hM, rfl⟩ := moveDependentTasks_eq (by exact hW) ha'
      refine dispatchTasks_matched (fun t ht => hs.regular t ?_) hp.available
      rcases List.mem_append.1 ht with ht | ht
      · exact List.mem_append_right _ ht
      · exact List.mem_append_left _ (List.map_subset _ (List.filter_sublist _).subset (hM.subset ht))
  | workerAvailable w' R hw' =>
    obtain ⟨-, -, -, rfl⟩ := handleWorkerAvailable_eq_some.1 h
    refine dispatchTasks_matched (fun t ht => hs.regular t (List.mem_append_right _ ht)) fun x hx => ?_
    rcases List.mem_append.1 hx with hx | hx
    · exact hp.available x hx
    · rw [List.mem_singleton.1 hx]
      exact hw'
  | workerBlocked w' R =>
    obtain ⟨-, -, rfl⟩ := handleWorkerBlocked_eq_some.1 h
    exact dispatchTasks_matched (fun t ht => hs.regular t (List.mem_append_right _ ht)) hp.available
  | workerRemoved w' =>
    obtain ⟨-, -, -, -, -, rfl⟩ := handleWorkerRemoved_eq_some.1 h
    exact List.forall_mem_nil _
  | workerUnblocked w' R =>
    obtain ⟨-, -, rfl⟩ := handleWorkerUnblocked_eq_some.1 h
    exact List.forall_mem_nil _
  | actorTaskSubmitted => exact (handleActorTaskSubmitted_actorPathStep h).handOuts_matched hq hw
  | actorTaskScheduled =>
    exact (handleActorTaskScheduled_dispatchesAfter h).actorPathStep.handOuts_matched hq hw
  | actorCreationNotification A =>
    exact (handleActorCreationNotification_actorPathStep (A := A) h).handOuts_matched hq hw
  | actorWorkerAvailable =>
    exact (handleActorWorkerAvailable_dispatchesAfter h).actorPathStep.handOuts_matched hq hw
  | actorWorkerConnect =>
    exact (handleActorWorkerConnect_dispatchesAfter rfl h).actorPathStep.handOuts_matched hq hw
  | actorWorkerDisconnect =>
    exact (handleActorWorkerDisconnect_actorPathStep h).handOuts_matched hq hw
  | objectRemoved => exact hnil (handleObjectRemoved_trackerStep h).assignments_eq
  | driverRemoved => exact hnil (handleDriverRemoved_trackerStep h).assignments_eq
  | fetchTimeout =>
    cases h
    exact hnil (fetchObjectTimeoutHandler_trackerStep s).assignments_eq
  | actorMappingAdded =>
    simp only [handleEvent, check_bind, Option.ite_none_right_eq_some, Option.pure_def,
      Option.some.injEq] at h
    obtain ⟨-, rfl⟩ := h
    exact List.forall_mem_nil _
  | plasmaConnection | childPids =>
    cases h
    exact List.forall_mem_nil _

end Matching

/-- **Every task goes to a worker of its own kind.** From every reachable state, every task a
step hands to a worker carries that worker's actor: a regular task goes to a regular worker,
never to an actor's, and an actor's task goes to a worker of that actor. -/
theorem tasks_go_to_own_workers (s : LocalSchedulerState n) (hs : Reachable s) (e : Event n)
    (r : LocalSchedulerState n × List (Effect n)) (h : handleEvent s e = some r)
    (t : TaskQueueEntry n) (w : LocalSchedulerClient) (hc : .assignTaskToWorker t w ∈ r.2) :
    t.spec.actorId = w.actorId :=
  handleEvent_handOuts_matched (reachable_entriesWF hs) (reachable_trackerInvariant hs).cursors_nodup
    (reachable_poolWorkersRegular hs) (reachable_queueKeyed hs) (reachable_actorWorkersKeyed hs) h
    (t, w) (mem_assignments_of_mem hc)

theorem tasks_go_to_own_workers_poolRun :
    Reachable poolRun.1 ∧ ∃ r, handleEvent poolRun.1 (.taskSubmitted driverTwoTask 0 rfl) = some r ∧
      ∀ t w, .assignTaskToWorker t w ∈ r.2 → t.spec.actorId = w.actorId := by
  have hs : Reachable poolRun.1 := runEvents_reachable (.init rfl) runEvents_poolRun
  obtain ⟨r, hr⟩ : ∃ r, handleEvent poolRun.1 (.taskSubmitted driverTwoTask 0 rfl) = some r :=
    ⟨_, by with_unfolding_all rfl⟩
  exact ⟨hs, r, hr, tasks_go_to_own_workers _ hs _ _ hr⟩

/-- The step hands the task to the one available worker. -/
example : (handleEvent poolRun.1 (.taskSubmitted driverTwoTask 0 rfl)).map
    (fun r => (assignments r.2).map Prod.snd) = some [⟨8, nilActorId⟩] := by
  with_unfolding_all decide

end LocalScheduler
