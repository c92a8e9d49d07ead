import LocalScheduler.Events

/-!
# No lost wake-up for regular tasks

A regular task is stranded when a worker is free, some resource is left and the task fits in
what is left, yet the handler that made it so has returned without dispatching. Every handler
that can add a worker, a resource or a dispatchable task ends in `dispatch_tasks`, and the
others only take workers, resources or tasks away.

* `dispatchTasks_not_stranded` — `dispatch_tasks` leaves nothing stranded, as long as the tasks
  it hands out need no negative amount of a resource.
* `handleEvent_not_stranded` — a step from a state with nothing stranded leaves nothing
  stranded.
* `no_stranded_work` — over every run from the initial state whose tasks need no negative
  amount and whose resuming workers take back no negative amount, nothing is stranded
  whenever a handler has returned.
-/

namespace LocalScheduler

open LocalSchedulerState

variable {n : Nat}

/-- A worker is free, some resource is left, and a queued task fits in what is left. -/
def WorkStranded (s : LocalSchedulerState n) : Prop :=
  s.algorithmState.availableWorkers ≠ [] ∧ (∃ k, 0 < s.dynamicResources k) ∧
    ∃ t ∈ s.algorithmState.dispatchTaskQueue, ∀ i, t.spec.requiredResources i ≤ s.dynamicResources i

/-- What the resource accounting of a run assumes of each observation: a task handed out needs
no negative amount of any resource, and a resuming worker takes back no negative amount. -/
def Observation.nonnegative : Observation n → Bool
  | .call (.assignTaskToWorker t _) => decide (∀ i, 0 ≤ t.spec.requiredResources i)
  | .event (.workerUnblocked _ reacquired) => decide (∀ i, 0 ≤ reacquired i)
  | _ => true

section Step

variable {s s' : LocalSchedulerState n} {e : Event n} {r : LocalSchedulerState n × List (Effect n)}

theorem dispatchTasks_not_stranded (s : LocalSchedulerState n)
    (hq : ∀ p ∈ assignments (dispatchTasks s).2, ∀ i, 0 ≤ p.1.spec.requiredResources i) :
    ¬ WorkStranded (dispatchTasks s).1 := by
  rintro ⟨havailable, ⟨k, hk⟩, t, ht, hfit⟩
  rcases dispatchTasks_stops s hq with h | h | h
  · exact havailable h
  · exact absurd (h k) (not_le.2 hk)
  · exact h t ht hfit

/-- Fewer workers, fewer resources and fewer queued tasks strand nothing new. -/
theorem WorkStranded.of_le (h : WorkStranded s')
    (havailable : s'.algorithmState.availableWorkers ≠ [] → s.algorithmState.availableWorkers ≠ [])
    (hR : ∀ i, s'.dynamicResources i ≤ s.dynamicResources i)
    (hq : ∀ t ∈ s'.algorithmState.dispatchTaskQueue, t ∈ s.algorithmState.dispatchTaskQueue) :
    WorkStranded s := by
  obtain ⟨hw, ⟨k, hk⟩, t, ht, hfit⟩ := h
  exact ⟨havailable hw, ⟨k, hk.trans_le (hR k)⟩, t, hq t ht, fun i => (hfit i).trans (hR i)⟩

/-- A step from a state with nothing stranded leaves nothing stranded: the handlers that end
in `dispatch_tasks` by `dispatchTasks_not_stranded`, the others because they only take
workers, resources or queued tasks away. -/
theorem handleEvent_not_stranded (hs : ¬ WorkStranded s) (h : handleEvent s e = some r)
    (hq : ∀ p ∈ assignments r.2, ∀ i, 0 ≤ p.1.spec.requiredResources i)
    (hR : ∀ w R, e = .workerUnblocked w R → ∀ i, 0 ≤ R i) : ¬ WorkStranded r.1 := by
  rcases handleEvent_cases h with ⟨-, -, q, hq', ⟨rfl, hsub⟩ | rfl⟩ | hr | ⟨w, R, -, -, h⟩ |
    ⟨w, -, h⟩ | ⟨w, R, -, h⟩ | ⟨w, R, rfl, h⟩ | ⟨-, ha, hd, -⟩
  · -- a tracker step that does not dispatch takes queued tasks away at most
    refine fun h' => hs (h'.of_le ?_ ?_ fun t ht => hsub.subset ht)
    · rw [hq'.queues.pools.available]
      exact id
    · simp [hq'.queues.dynamicResources]
  · exact dispatchTasks_not_stranded _ fun p hp => hq p (by simp [hq'.assignments_eq, hp])
  · -- the actor path debits what it hands out
    refine fun h' => hs (h'.of_le ?_ (fun i => ?_) fun t ht => ?_)
    · rw [hr.frame.regular.pools.available]
      exact id
    · have : 0 ≤ requiredSum ((assignments r.2).map Prod.fst) i := requiredSum_nonneg fun t ht => by
        obtain ⟨p, hp, rfl⟩ := List.mem_map.1 ht
        exact hq p hp i
      rw [hr.resources i]
      linarith
    · rwa [hr.frame.regular.dispatch] at ht
  · obtain ⟨s₁, -, rfl⟩ := handleWorkerAvailable_poolsStep h
    exact dispatchTasks_not_stranded s₁ hq
  · -- a removed worker leaves the pools
    obtain ⟨-, -, -, -, -, rfl⟩ := handleWorkerRemoved_eq_some.1 h
    refine fun h' => hs (h'.of_le (fun hw hnil => hw ?_) (fun _ => le_rfl) fun _ => id)
    exact List.eq_nil_iff_forall_not_mem.2 fun x hx =>
      (List.eq_nil_iff_forall_not_mem.1 hnil) x (mem_of_mem_removeWorkerFromVector hx)
  · obtain ⟨s₁, -, rfl⟩ := handleWorkerBlocked_poolsStep h
    exact dispatchTasks_not_stranded s₁ hq
  · -- a resuming worker takes resources back
    obtain ⟨-, -, rfl⟩ := handleWorkerUnblocked_eq_some.1 h
    refine fun h' => hs (h'.of_le id (fun i => ?_) fun _ => id)
    simp only [debitResources]
    linarith [hR w R rfl i]
  · refine fun h' => hs (h'.of_le ?_ (fun i => (congrFun hd i).le) fun t ht => ?_)
    · rw [ha]
      exact id
    · rwa [ha] at ht

end Step

/-- Over every run from a state with nothing stranded, under the resource accounting of
`Observation.nonnegative`, nothing is stranded at the end. -/
theorem runEvents_not_stranded :
    ∀ {es : List (Event n)} {s : LocalSchedulerState n}
      {r : LocalSchedulerState n × List (Observation n)},
      ¬ WorkStranded s → runEvents s es = some r → (∀ o ∈ r.2, o.nonnegative = true) →
        ¬ WorkStranded r.1
  | [], _, _, hs, h, _ => by
    cases h
    exact hs
  | e :: es, s, _, hs, h, hobs => by
    simp only [runEvents, Option.bind_eq_bind, Option.bind_eq_some, Option.pure_def,
      Option.some.injEq] at h
    obtain ⟨q, hq, q', hq', rfl⟩ := h
    simp only [List.mem_cons, List.mem_append, List.mem_map] at hobs
    refine runEvents_not_stranded (r := q')
      (handleEvent_not_stranded hs hq (fun p hp i => ?_) ?_) hq' fun o ho => hobs o (.inr ho)
    · have := hobs _ (.inl (.inr ⟨_, mem_of_mem_assignments hp, rfl⟩))
      simp only [Observation.nonnegative, decide_eq_true_eq] at this
      exact this i
    · rintro w R rfl
      simpa [Observation.nonnegative] using hobs _ (.inl (.inl rfl))

/-- **No lost wake-up for regular tasks.** Take any run from the initial state in which every
task handed to a worker needs no negative amount of any resource and every resuming worker
takes back no negative amount (the resources otherwise change only as `Event` says: credited
before `handle_worker_available` and `handle_worker_blocked`, debited at
`handle_worker_unblocked` and by each task handed out). When it has returned, no worker is
free while some resource is left and a queued task fits in what is left. -/
theorem no_stranded_work (s : LocalSchedulerState n) (es : List (Event n))
    (r : LocalSchedulerState n × List (Observation n))
    (hs : s.algorithmState = SchedulingAlgorithmState.init n) (h : runEvents s es = some r)
    (hobs : ∀ o ∈ r.2, o.nonnegative = true) :
    ¬ (r.1.algorithmState.availableWorkers ≠ [] ∧ (∃ k, 0 < r.1.dynamicResources k) ∧
      ∃ t ∈ r.1.algorithmState.dispatchTaskQueue,
        ∀ i, t.spec.requiredResources i ≤ r.1.dynamicResources i) :=
  runEvents_not_stranded (fun h' => h'.1 (by simp [hs, SchedulingAlgorithmState.init])) h hobs

/-! ## A run on one slot -/

/-- A regular worker. -/
def sevenWorker : LocalSchedulerClient := ⟨7, nilActorId⟩

/-- A regular task that takes the whole of the node's one resource. -/
def wholeSlotTask : TaskSpec 1 := ⟨0, nilActorId, 0, [], fun _ => 1⟩

/-- A node with one unit of one resource, a database client and a global scheduler. -/
def oneSlotNode : LocalSchedulerState 1 where
  algorithmState := SchedulingAlgorithmState.init 1
  db := some 1
  globalSchedulerExists := true
  actorMapping := fun _ => none
  staticResources := fun _ => 1
  dynamicResources := fun _ => 1
  plasmaConnected := true
  numChildPids := 0
  nextAddress := 0

/-- The worker connects, a task is submitted and runs, a second one is placed here by the
global scheduler and waits, and the worker finishes the first. -/
def oneSlotEvents : List (Event 1) :=
  [.workerAvailable sevenWorker (fun _ => 0) rfl, .taskSubmitted wholeSlotTask 0 rfl,
    .taskScheduled wholeSlotTask 0 rfl, .workerAvailable sevenWorker (fun _ => 1) rfl]

/-- The end of that run. -/
def oneSlotRun : LocalSchedulerState 1 × List (Observation 1) :=
  (runEvents oneSlotNode oneSlotEvents).getD (oneSlotNode, [])

theorem runEvents_oneSlot : runEvents oneSlotNode oneSlotEvents = some oneSlotRun := by
  with_unfolding_all rfl

/-- The second task went to the worker as soon as the first gave the resource back. -/
example : oneSlotRun.1.algorithmState.dispatchTaskQueue.length = 0 ∧
    oneSlotRun.1.algorithmState.executingWorkers = [sevenWorker] ∧
    (assignments (oneSlotRun.2.filterMap fun | .call c => some c | _ => none)).length = 2 := by
  with_unfolding_all decide

theorem no_stranded_work_oneSlot :
    ¬ (oneSlotRun.1.algorithmState.availableWorkers ≠ [] ∧
      (∃ k, 0 < oneSlotRun.1.dynamicResources k) ∧
      ∃ t ∈ oneSlotRun.1.algorithmState.dispatchTaskQueue,
        ∀ i, t.spec.requiredResources i ≤ oneSlotRun.1.dynamicResources i) :=
  no_stranded_work oneSlotNode oneSlotEvents oneSlotRun rfl runEvents_oneSlot
    (by with_unfolding_all decide)

end LocalScheduler
