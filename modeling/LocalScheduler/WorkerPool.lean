import LocalScheduler.Events

/-!
# The worker pool invariant

No regular worker is in two of `available_workers`, `executing_workers` and
`blocked_workers`, or twice in one of them (`reachable_workerPoolsDisjoint`). The handlers keep
it under their `CHECK`s and `DCHECK`s: each moves one worker from one pool to another, and
`dispatch_tasks` only moves workers from the back of the available pool to the executing
pool (`dispatchTasks_workerPools_perm`).

From it, a worker that `dispatch_tasks` hands a task to was available and is afterwards only
executing (`dispatchTasks_assigned_worker`), so a regular worker is never handed a second task
before it reports itself available again (`worker_pool_invariant`).
-/

namespace LocalScheduler

open LocalSchedulerState List

variable {n : Nat}

/-- The regular workers of the three pools, in one list. -/
def SchedulingAlgorithmState.workerPools (a : SchedulingAlgorithmState n) :
    List LocalSchedulerClient :=
  a.availableWorkers ++ a.executingWorkers ++ a.blockedWorkers

/-- The pools are pairwise disjoint and hold no worker twice. -/
def WorkerPoolsDisjoint (s : LocalSchedulerState n) : Prop :=
  s.algorithmState.workerPools.Nodup

/-- The invariant, pool by pool. -/
theorem workerPoolsDisjoint_iff {s : LocalSchedulerState n} :
    WorkerPoolsDisjoint s ↔
      s.algorithmState.availableWorkers.Nodup ∧ s.algorithmState.executingWorkers.Nodup ∧
      s.algorithmState.blockedWorkers.Nodup ∧
      s.algorithmState.availableWorkers.Disjoint s.algorithmState.executingWorkers ∧
      s.algorithmState.availableWorkers.Disjoint s.algorithmState.blockedWorkers ∧
      s.algorithmState.executingWorkers.Disjoint s.algorithmState.blockedWorkers := by
  simp only [WorkerPoolsDisjoint, SchedulingAlgorithmState.workerPools, List.nodup_append,
    List.disjoint_append_left]
  tauto

/-- What the invariant says about each pool. -/
theorem WorkerPoolsDisjoint.pools {s : LocalSchedulerState n} (hs : WorkerPoolsDisjoint s) :
    s.algorithmState.availableWorkers.Nodup ∧ s.algorithmState.executingWorkers.Nodup ∧
      s.algorithmState.blockedWorkers.Nodup ∧
      (∀ w ∈ s.algorithmState.executingWorkers, w ∉ s.algorithmState.availableWorkers) ∧
      (∀ w ∈ s.algorithmState.blockedWorkers, w ∉ s.algorithmState.availableWorkers) := by
  unfold WorkerPoolsDisjoint SchedulingAlgorithmState.workerPools at hs
  rw [List.nodup_append, List.nodup_append] at hs
  obtain ⟨⟨ha, he, hae⟩, hb, habe⟩ := hs
  exact ⟨ha, he, hb, fun w hw hwa => hae hwa hw,
    fun w hw hwa => habe (List.mem_append_left _ hwa) hw⟩

theorem LocalSchedulerState.SamePools.workerPools_eq {s s' : LocalSchedulerState n} (h : SamePools s s') :
    s'.algorithmState.workerPools = s.algorithmState.workerPools := by
  simp only [SchedulingAlgorithmState.workerPools, h.available, h.executing, h.blocked]

theorem LocalSchedulerState.SamePools.workerPoolsDisjoint {s s' : LocalSchedulerState n} (h : SamePools s s')
    (hs : WorkerPoolsDisjoint s) : WorkerPoolsDisjoint s' := by
  unfold WorkerPoolsDisjoint
  rwa [h.workerPools_eq]

/-- `dispatch_tasks` only moves workers from the back of the available pool to the executing
pool: the pools hold the same workers afterwards. -/
theorem dispatchTasks_workerPools_perm (s : LocalSchedulerState n) :
    (dispatchTasks s).1.algorithmState.workerPools.Perm s.algorithmState.workerPools := by
  obtain ⟨a, h⟩ := dispatchTasksLoop_spec s.algorithmState.dispatchTaskQueue s
  have hav : (dispatchTasks s).1.algorithmState.availableWorkers = _ := h.available
  have hex : (dispatchTasks s).1.algorithmState.executingWorkers = _ := h.executing
  simp only [SchedulingAlgorithmState.workerPools, hav, hex, dispatchTasks_blockedWorkers,
    List.take_reverse]
  set W := s.algorithmState.availableWorkers
  set m := W.length - a.length
  refine List.Perm.append_right _ ?_
  calc (W.take m ++ (s.algorithmState.executingWorkers ++ (W.drop m).reverse)).Perm
        (W.take m ++ ((W.drop m).reverse ++ s.algorithmState.executingWorkers)) :=
        List.perm_append_comm.append_left _
      _ = W.take m ++ (W.drop m).reverse ++ s.algorithmState.executingWorkers := by
        rw [List.append_assoc]
      _ ~ W.take m ++ W.drop m ++ s.algorithmState.executingWorkers :=
        ((List.reverse_perm _).append_left _).append_right _
      _ = W ++ s.algorithmState.executingWorkers := by rw [List.take_append_drop]

theorem dispatchTasks_workerPoolsDisjoint {s : LocalSchedulerState n} (hs : WorkerPoolsDisjoint s) :
    WorkerPoolsDisjoint (dispatchTasks s).1 :=
  (dispatchTasks_workerPools_perm s).nodup_iff.2 hs

/-- A worker `dispatch_tasks` hands a task to was available, and afterwards is executing and
in no other pool. -/
theorem dispatchTasks_assigned_worker {s : LocalSchedulerState n} (hs : WorkerPoolsDisjoint s)
    {w : LocalSchedulerClient} (hw : w ∈ (assignments (dispatchTasks s).2).map Prod.snd) :
    w ∈ s.algorithmState.availableWorkers ∧
      w ∈ (dispatchTasks s).1.algorithmState.executingWorkers ∧
      w ∉ (dispatchTasks s).1.algorithmState.availableWorkers ∧
      w ∉ (dispatchTasks s).1.algorithmState.blockedWorkers := by
  obtain ⟨ha, -, -, -, hba⟩ := hs.pools
  obtain ⟨m, hcalls, hav, hex⟩ := dispatchTasks_workers s
  rw [hcalls, List.mem_reverse] at hw
  have hW := List.mem_of_mem_drop hw
  refine ⟨hW, ?_, ?_, ?_⟩
  · rw [hex]
    exact List.mem_append_right _ (List.mem_reverse.2 hw)
  · rw [hav]
    exact fun h' => List.disjoint_take_drop ha le_rfl h' hw
  · rw [dispatchTasks_blockedWorkers]
    exact fun h' => hba w h' hW

/-- Within one dispatch a worker is handed at most one task. -/
theorem dispatchTasks_workers_nodup {s : LocalSchedulerState n} (hs : WorkerPoolsDisjoint s) :
    ((assignments (dispatchTasks s).2).map Prod.snd).Nodup := by
  obtain ⟨m, hcalls, -, -⟩ := dispatchTasks_workers s
  rw [hcalls, List.nodup_reverse]
  exact hs.pools.1.sublist (List.drop_sublist _ _)

/-! ## The worker handlers keep the pools disjoint -/

section Handlers

variable {s : LocalSchedulerState n} {worker : LocalSchedulerClient}
  {r : LocalSchedulerState n × List (Effect n)}

/-- A list that is, up to order, one new worker in front of a sublist of a duplicate-free
list, is duplicate-free. -/
theorem nodup_of_perm_cons {P P' L : List LocalSchedulerClient} {w : LocalSchedulerClient}
    (hP : P.Nodup) (hL : L.Sublist P) (hw : w ∉ L) (h : P'.Perm (w :: L)) : P'.Nodup :=
  h.nodup_iff.2 (List.nodup_cons.2 ⟨hw, hP.sublist hL⟩)

/-- `handle_worker_available` dispatches from disjoint pools in which the worker has joined
the available pool. -/
theorem handleWorkerAvailable_pools (hs : WorkerPoolsDisjoint s)
    (h : handleWorkerAvailable s worker = some r) :
    ∃ s₁, WorkerPoolsDisjoint s₁ ∧
      s₁.algorithmState.availableWorkers = s.algorithmState.availableWorkers ++ [worker] ∧
      r = dispatchTasks s₁ := by
  obtain ⟨ha, hb, he, rfl⟩ := handleWorkerAvailable_eq_some.1 h
  have hperm := removeWorkerFromVector_perm s.algorithmState.executingWorkers worker
  refine ⟨_, nodup_of_perm_cons hs (w := worker)
    (L := s.algorithmState.availableWorkers ++ s.algorithmState.executingWorkers.erase worker ++
      s.algorithmState.blockedWorkers) ?_ ?_ ?_, rfl, rfl⟩
  · exact ((List.Sublist.refl _).append (List.erase_sublist _ _)).append (List.Sublist.refl _)
  · simp only [List.mem_append, not_or]
    exact ⟨⟨ha, fun h' => he (hperm.mem_iff.2 h')⟩, hb⟩
  · simp only [SchedulingAlgorithmState.workerPools, List.append_assoc, List.singleton_append]
    exact List.perm_middle.trans (((hperm.append_right _).append_left _).cons _)

/-- `handle_worker_removed` leaves disjoint pools and no worker joins the available pool. -/
theorem handleWorkerRemoved_pools (hs : WorkerPoolsDisjoint s)
    (h : handleWorkerRemoved s worker = some r) :
    WorkerPoolsDisjoint r.1 ∧
      r.1.algorithmState.availableWorkers ⊆ s.algorithmState.availableWorkers := by
  obtain ⟨-, -, -, -, -, rfl⟩ := handleWorkerRemoved_eq_some.1 h
  refine ⟨(((removeWorkerFromVector_perm _ _).append (removeWorkerFromVector_perm _ _)).append
    (removeWorkerFromVector_perm _ _)).nodup_iff.2 (List.Nodup.sublist ?_ hs),
    fun w hw => List.mem_of_mem_erase ((removeWorkerFromVector_perm _ _).subset hw)⟩
  exact ((List.erase_sublist _ _).append (List.erase_sublist _ _)).append (List.erase_sublist _ _)

/-- `handle_worker_blocked` dispatches from disjoint pools with the available pool unchanged. -/
theorem handleWorkerBlocked_pools (hs : WorkerPoolsDisjoint s)
    (h : handleWorkerBlocked s worker = some r) :
    ∃ s₁, WorkerPoolsDisjoint s₁ ∧
      s₁.algorithmState.availableWorkers = s.algorithmState.availableWorkers ∧
      r = dispatchTasks s₁ := by
  obtain ⟨he, hb, rfl⟩ := handleWorkerBlocked_eq_some.1 h
  obtain ⟨-, hen, -, hea, -⟩ := hs.pools
  have hperm := removeWorkerFromVector_perm s.algorithmState.executingWorkers worker
  refine ⟨_, nodup_of_perm_cons hs (w := worker)
    (L := s.algorithmState.availableWorkers ++ s.algorithmState.executingWorkers.erase worker ++
      s.algorithmState.blockedWorkers) ?_ ?_ ?_, ?_, rfl⟩
  · exact ((List.Sublist.refl _).append (List.erase_sublist _ _)).append (List.Sublist.refl _)
  · simp only [List.mem_append, not_or]
    exact ⟨⟨hea worker he, hen.not_mem_erase⟩, hb⟩
  · simp only [SchedulingAlgorithmState.workerPools, ← List.append_assoc]
    exact (((hperm.append_left _).append_right _).append_right _).trans
      (List.perm_append_singleton _ _)
  · rfl

/-- `handle_worker_unblocked` leaves disjoint pools with the available pool unchanged. -/
theorem handleWorkerUnblocked_pools (hs : WorkerPoolsDisjoint s)
    (h : handleWorkerUnblocked s worker = some r) :
    WorkerPoolsDisjoint r.1 ∧
      r.1.algorithmState.availableWorkers = s.algorithmState.availableWorkers := by
  obtain ⟨hb, he, rfl⟩ := handleWorkerUnblocked_eq_some.1 h
  obtain ⟨-, -, hbn, -, hba⟩ := hs.pools
  have hperm := removeWorkerFromVector_perm s.algorithmState.blockedWorkers worker
  refine ⟨nodup_of_perm_cons hs (w := worker)
    (L := s.algorithmState.availableWorkers ++ s.algorithmState.executingWorkers ++
      s.algorithmState.blockedWorkers.erase worker) ?_ ?_ ?_, rfl⟩
  · exact (List.Sublist.refl _).append (List.erase_sublist _ _)
  · simp only [List.mem_append, not_or]
    exact ⟨⟨hba worker hb, he⟩, hbn.not_mem_erase⟩
  · simp only [SchedulingAlgorithmState.workerPools, List.append_assoc, List.singleton_append]
    exact (((hperm.cons _).append_left _).append_left _).trans
      ((List.perm_middle.append_left _).trans List.perm_middle)

end Handlers

/-! ## Every reachable state -/

/-- The event reports the regular worker `w` free. -/
def Event.reportsFree (w : LocalSchedulerClient) : Event n → Bool
  | .workerAvailable w' _ _ => decide (w' = w)
  | _ => false

theorem Event.reportsFree_iff {w : LocalSchedulerClient} {e : Event n} :
    e.reportsFree w = true ↔ ∃ R hw, e = .workerAvailable w R hw := by
  cases e with
  | workerAvailable w' R hw' =>
    simp only [reportsFree, decide_eq_true_eq, Event.workerAvailable.injEq]
    exact ⟨fun h => ⟨R, h ▸ hw', h, rfl⟩, fun ⟨_, _, h, _⟩ => h⟩
  | _ => simp [reportsFree]


section Run

variable {s : LocalSchedulerState n} {e : Event n} {r : LocalSchedulerState n × List (Effect n)}

theorem handleEvent_workerPoolsDisjoint (hs : WorkerPoolsDisjoint s)
    (h : handleEvent s e = some r) : WorkerPoolsDisjoint r.1 := by
  rcases handleEvent_cases h with ⟨-, -, q, hq, ⟨rfl, -⟩ | rfl⟩ | hr | ⟨w, R, -, -, h⟩ | ⟨w, -, h⟩ |
    ⟨w, R, -, h⟩ | ⟨w, R, -, h⟩ | ⟨-, ha, -, -⟩
  · exact hq.queues.pools.workerPoolsDisjoint hs
  · exact dispatchTasks_workerPoolsDisjoint (hq.queues.pools.workerPoolsDisjoint hs)
  · exact hr.frame.regular.pools.workerPoolsDisjoint hs
  · obtain ⟨s₁, h₁, -, rfl⟩ := handleWorkerAvailable_pools (s := s.creditResources R) hs h
    exact dispatchTasks_workerPoolsDisjoint h₁
  · exact (handleWorkerRemoved_pools hs h).1
  · obtain ⟨s₁, h₁, -, rfl⟩ := handleWorkerBlocked_pools (s := s.creditResources R) hs h
    exact dispatchTasks_workerPoolsDisjoint h₁
  · exact (handleWorkerUnblocked_pools (s := s.debitResources R) hs h).1
  · unfold WorkerPoolsDisjoint
    rwa [ha]

theorem reachable_workerPoolsDisjoint (hs : Reachable s) : WorkerPoolsDisjoint s := by
  induction hs with
  | init h => simp [WorkerPoolsDisjoint, SchedulingAlgorithmState.workerPools, h,
      SchedulingAlgorithmState.init]
  | step _ h ih => exact handleEvent_workerPoolsDisjoint ih h

theorem handleEvent_actorWorkersKeyed (hs : ActorWorkersKeyed s.algorithmState.localActorInfos)
    (h : handleEvent s e = some r) : ActorWorkersKeyed r.1.algorithmState.localActorInfos := by
  rcases handleEvent_actorRecords h with ⟨-, hI, -⟩ | hr
  · rwa [hI]
  · obtain ⟨ks, hops, -⟩ := hr.records
    exact (hops.keyed hs).1

/-- Every worker of the pools is a regular worker: the caller reports an actor's worker to
the actor path, and the pools only move or drop the workers they hold. -/
def PoolWorkersRegular (s : LocalSchedulerState n) : Prop :=
  ∀ w ∈ s.algorithmState.workerPools, w.actorId = nilActorId

theorem handleEvent_poolWorkersRegular (hs : PoolWorkersRegular s)
    (h : handleEvent s e = some r) : PoolWorkersRegular r.1 := by
  have hdispatch : ∀ s₁ : LocalSchedulerState n, PoolWorkersRegular s₁ →
      PoolWorkersRegular (dispatchTasks s₁).1 :=
    fun s₁ h₁ w hw => h₁ w ((dispatchTasks_workerPools_perm s₁).mem_iff.1 hw)
  rcases handleEvent_cases h with ⟨-, -, q, hq, ⟨rfl, -⟩ | rfl⟩ | hr | ⟨w, R, hw, -, h⟩ | ⟨w, -, h⟩ |
    ⟨w, R, -, h⟩ | ⟨w, R, -, h⟩ | ⟨-, ha, -, -⟩
  · exact fun x hx => hs x (hq.queues.pools.workerPools_eq ▸ hx)
  · exact hdispatch _ fun x hx => hs x (hq.queues.pools.workerPools_eq ▸ hx)
  · exact fun x hx => hs x (hr.frame.regular.pools.workerPools_eq ▸ hx)
  · obtain ⟨-, -, -, rfl⟩ := handleWorkerAvailable_eq_some.1 h
    refine hdispatch _ fun x hx => ?_
    simp only [SchedulingAlgorithmState.workerPools, List.mem_append, List.mem_singleton] at hx
    rcases hx with ((hx | rfl) | hx) | hx
    · exact hs x (List.mem_append_left _ (List.mem_append_left _ hx))
    · exact hw
    · exact hs x (List.mem_append_left _ (List.mem_append_right _
        (mem_of_mem_removeWorkerFromVector hx)))
    · exact hs x (List.mem_append_right _ hx)
  · obtain ⟨-, -, -, -, -, rfl⟩ := handleWorkerRemoved_eq_some.1 h
    intro x hx
    simp only [SchedulingAlgorithmState.workerPools, List.mem_append] at hx
    refine hs x ?_
    rcases hx with (hx | hx) | hx <;>
      simp [SchedulingAlgorithmState.workerPools, mem_of_mem_removeWorkerFromVector hx]
  · obtain ⟨he, -, rfl⟩ := handleWorkerBlocked_eq_some.1 h
    refine hdispatch _ fun x hx => hs x ?_
    simp only [SchedulingAlgorithmState.workerPools, List.mem_append, List.mem_singleton] at hx ⊢
    rcases hx with (hx | hx) | hx | rfl
    · exact .inl (.inl hx)
    · exact .inl (.inr (mem_of_mem_removeWorkerFromVector hx))
    · exact .inr hx
    · exact .inl (.inr he)
  · obtain ⟨hb, -, rfl⟩ := handleWorkerUnblocked_eq_some.1 h
    intro x hx
    refine hs x ?_
    simp only [SchedulingAlgorithmState.workerPools, List.mem_append, List.mem_singleton] at hx ⊢
    rcases hx with (hx | hx | rfl) | hx
    · exact .inl (.inl hx)
    · exact .inl (.inr hx)
    · exact .inr hb
    · exact .inr (mem_of_mem_removeWorkerFromVector hx)
  · unfold PoolWorkersRegular
    rwa [ha]

theorem reachable_poolWorkersRegular (hs : Reachable s) : PoolWorkersRegular s := by
  induction hs with
  | init h => simp [PoolWorkersRegular, SchedulingAlgorithmState.workerPools, h,
      SchedulingAlgorithmState.init]
  | step _ h ih => exact handleEvent_poolWorkersRegular ih h

theorem reachable_actorWorkersKeyed (hs : Reachable s) :
    ActorWorkersKeyed s.algorithmState.localActorInfos := by
  induction hs with
  | init h => simp [ActorWorkersKeyed, h, SchedulingAlgorithmState.init]
  | step _ h ih => exact handleEvent_actorWorkersKeyed ih h

/-- What `dispatch_tasks` does for one worker, from disjoint pools. -/
theorem dispatchTasks_worker {s : LocalSchedulerState n} (hs : WorkerPoolsDisjoint s)
    (w : LocalSchedulerClient) :
    (w ∈ (dispatchTasks s).1.algorithmState.availableWorkers →
        w ∈ s.algorithmState.availableWorkers) ∧
      ((assignments (dispatchTasks s).2).map Prod.snd).count w ≤ 1 ∧
      (w ∈ (assignments (dispatchTasks s).2).map Prod.snd →
        w ∈ s.algorithmState.availableWorkers ∧
          w ∉ (dispatchTasks s).1.algorithmState.availableWorkers) := by
  obtain ⟨m, -, hav, -⟩ := dispatchTasks_workers s
  refine ⟨fun h => ?_, List.nodup_iff_count_le_one.1 (dispatchTasks_workers_nodup hs) w,
    fun h => ⟨(dispatchTasks_assigned_worker hs h).1, (dispatchTasks_assigned_worker hs h).2.2.1⟩⟩
  rw [hav] at h
  exact List.mem_of_mem_take h

/-- What one step does for a regular worker `w`: it joins the available pool only by a
`workerAvailable` event for it; and it is handed at most one task, only if it was available
or has just joined, after which it is not available. -/
theorem handleEvent_regular_worker {w : LocalSchedulerClient} (hw : w.actorId = nilActorId)
    (hs : WorkerPoolsDisjoint s) (hk : ActorWorkersKeyed s.algorithmState.localActorInfos)
    (h : handleEvent s e = some r) :
    (w ∈ r.1.algorithmState.availableWorkers →
        w ∈ s.algorithmState.availableWorkers ∨ e.reportsFree w = true) ∧
      ((assignments r.2).map Prod.snd).count w ≤ 1 ∧
      (w ∈ (assignments r.2).map Prod.snd →
        (w ∈ s.algorithmState.availableWorkers ∨ e.reportsFree w = true) ∧
          w ∉ r.1.algorithmState.availableWorkers) := by
  rcases handleEvent_cases h with ⟨-, -, q, hq, ⟨rfl, -⟩ | rfl⟩ | hr | ⟨w', R, hw', rfl, h⟩ | ⟨w', rfl, h⟩ |
    ⟨w', R, rfl, h⟩ | ⟨w', R, rfl, h⟩ | ⟨-, ha, -, hc, -⟩
  · -- a tracker step
    rw [hq.assignments_eq, hq.queues.pools.available]
    exact ⟨.inl, by simp, by simp⟩
  · -- a tracker step, then a dispatch
    obtain ⟨h1, h2, h3⟩ := dispatchTasks_worker (hq.queues.pools.workerPoolsDisjoint hs) w
    rw [hq.queues.pools.available] at h1 h3
    simp only [assignments_append, hq.assignments_eq, List.nil_append]
    exact ⟨fun h' => .inl (h1 h'), h2, fun h' => ⟨.inl (h3 h').1, (h3 h').2⟩⟩
  · -- the actor path hands tasks to actors' workers only
    have hnot : w ∉ (assignments r.2).map Prod.snd := by
      simp only [List.mem_map, not_exists, not_and]
      rintro p hp rfl
      obtain ⟨ks, hops, -⟩ := hr.records
      exact ((hops.keyed hk).2 p hp).1 hw
    rw [hr.frame.regular.pools.available]
    exact ⟨.inl, by simp [List.count_eq_zero_of_not_mem hnot], fun h' => absurd h' hnot⟩
  · -- `workerAvailable`: the worker joins, then a dispatch
    obtain ⟨s₁, h₁, hav, rfl⟩ := handleWorkerAvailable_pools (s := s.creditResources R) hs h
    obtain ⟨h1, h2, h3⟩ := dispatchTasks_worker h₁ w
    have hjoin : w ∈ s₁.algorithmState.availableWorkers →
        w ∈ s.algorithmState.availableWorkers ∨ (Event.workerAvailable w' R hw').reportsFree w = true := by
      rw [hav]
      intro h'
      rcases List.mem_append.1 h' with h' | h'
      · exact .inl h'
      · exact .inr (by simp [Event.reportsFree, List.mem_singleton.1 h'])
    exact ⟨fun h' => hjoin (h1 h'), h2, fun h' => ⟨hjoin (h3 h').1, (h3 h').2⟩⟩
  · -- `workerRemoved`
    obtain ⟨-, hav⟩ := handleWorkerRemoved_pools hs h
    rw [(handleWorkerRemoved_poolsStep h).2]
    exact ⟨fun h' => .inl (hav h'), by simp, by simp⟩
  · -- `workerBlocked`: then a dispatch
    obtain ⟨s₁, h₁, hav, rfl⟩ := handleWorkerBlocked_pools (s := s.creditResources R) hs h
    obtain ⟨h1, h2, h3⟩ := dispatchTasks_worker h₁ w
    rw [hav] at h1 h3
    exact ⟨fun h' => .inl (h1 h'), h2, fun h' => ⟨.inl (h3 h').1, (h3 h').2⟩⟩
  · -- `workerUnblocked`
    rw [(handleWorkerUnblocked_poolsStep h).2,
      (handleWorkerUnblocked_pools (s := s.debitResources R) hs h).2]
    exact ⟨.inl, by simp, by simp⟩
  · rw [hc, ha]
    exact ⟨.inl, by simp, by simp⟩

end Run

/-! ## No regular worker is handed two tasks in a row -/

/-- One observation of the scan of a trace for the worker `w`, `free` saying whether `w` may
be handed a task: an event that reports `w` free makes it so, a task for `w` needs it and
ends it, and `none` is a task for `w` while it may not be handed one. -/
def handedOutStep (w : LocalSchedulerClient) (free : Bool) : Observation n → Option Bool
  | .event e => some (free || e.reportsFree w)
  | .call (.assignTaskToWorker _ w') =>
    if w' = w then (if free then some false else none) else some free
  | .call _ => some free

/-- The scan of a whole trace. -/
def handedOutWhenFree (w : LocalSchedulerClient) (free : Bool) (obs : List (Observation n)) :
    Option Bool :=
  obs.foldlM (handedOutStep w) free

section Scan

variable {w : LocalSchedulerClient}

/-- The calls of one handler, which hand `w` at most one task. -/
theorem handedOutWhenFree_calls :
    ∀ (calls : List (Effect n)) (free : Bool), ((assignments calls).map Prod.snd).count w ≤ 1 →
      handedOutWhenFree w free (calls.map .call) =
        if w ∈ (assignments calls).map Prod.snd then (if free then some false else none)
        else some free
  | [], _, _ => rfl
  | c :: calls, free, hc => by
    cases c with
    | assignTaskToWorker t w' =>
      by_cases hw : w' = w
      · subst w'
        rw [assignments_cons_assign, List.map_cons, List.count_cons_self] at hc
        have hnot : w ∉ (assignments calls).map Prod.snd := List.count_eq_zero.1 (by omega)
        have ih := handedOutWhenFree_calls calls false
          (by rw [List.count_eq_zero_of_not_mem hnot]; omega)
        simp only [handedOutWhenFree, List.map_cons, List.foldlM_cons, handedOutStep, if_pos rfl,
          assignments_cons_assign, List.mem_cons, true_or] at ih ⊢
        cases free <;> simp [ih, hnot]
      · rw [assignments_cons_assign, List.map_cons, List.count_cons_of_ne (Ne.symm hw)] at hc
        have ih := handedOutWhenFree_calls calls free hc
        simp only [handedOutWhenFree, List.map_cons, List.foldlM_cons, handedOutStep, if_neg hw,
          assignments_cons_assign, List.mem_cons, Ne.symm hw, false_or] at ih ⊢
        simpa using ih
    | _ => exact handedOutWhenFree_calls calls free hc

/-- Once `w` may not be handed a task, a task for it needs an event reporting it free
first. -/
theorem handedOutWhenFree_false {t : TaskQueueEntry n} {post : List (Observation n)} :
    ∀ {mid : List (Observation n)},
      handedOutWhenFree w false (mid ++ .call (.assignTaskToWorker t w) :: post) ≠ none →
        ∃ R hw, Observation.event (.workerAvailable w R hw) ∈ mid
  | [], h => by simp [handedOutWhenFree, handedOutStep] at h
  | .event e :: mid, h => by
    by_cases he : e.reportsFree w = true
    · obtain ⟨R, hw, rfl⟩ := Event.reportsFree_iff.1 he
      exact ⟨R, hw, List.mem_cons_self _ _⟩
    · simp only [handedOutWhenFree, List.cons_append, List.foldlM_cons, handedOutStep,
        Bool.false_or, Bool.not_eq_true] at he h
      rw [he] at h
      obtain ⟨R, hw, hR⟩ := handedOutWhenFree_false h
      exact ⟨R, hw, List.mem_cons_of_mem _ hR⟩
  | .call c :: mid, h => by
    have hstep : handedOutStep w false (.call c) = none ∨
        handedOutStep w false (.call c) = some false := by
      cases c with
      | assignTaskToWorker => simp only [handedOutStep]; split <;> simp
      | _ => simp [handedOutStep]
    simp only [handedOutWhenFree, List.cons_append, List.foldlM_cons] at h
    rcases hstep with hstep | hstep <;> rw [hstep] at h
    · simp at h
    · obtain ⟨R, hw, hR⟩ := handedOutWhenFree_false h
      exact ⟨R, hw, List.mem_cons_of_mem _ hR⟩

/-- After a task for `w`, the scan goes on with `w` not free. -/
theorem handedOutWhenFree_after {b : Bool} {pre rest : List (Observation n)}
    {t : TaskQueueEntry n}
    (h : handedOutWhenFree w b (pre ++ .call (.assignTaskToWorker t w) :: rest) ≠ none) :
    handedOutWhenFree w false rest ≠ none := by
  simp only [handedOutWhenFree, List.foldlM_append, List.foldlM_cons, handedOutStep,
    if_pos rfl] at h ⊢
  cases hpre : pre.foldlM (handedOutStep w) b with
  | none => simp [hpre] at h
  | some b' =>
    cases b'
    · simp [hpre] at h
    · simpa [hpre] using h

end Scan

section Run

variable {w : LocalSchedulerClient}

/-- Over every run from disjoint pools with every actor's worker recorded under its actor,
the regular worker `w` is handed a task only while it may be. -/
theorem runEvents_handedOutWhenFree (hw : w.actorId = nilActorId) :
    ∀ {es : List (Event n)} {s : LocalSchedulerState n}
      {r : LocalSchedulerState n × List (Observation n)} (free : Bool),
      WorkerPoolsDisjoint s → ActorWorkersKeyed s.algorithmState.localActorInfos →
      (free = false → w ∉ s.algorithmState.availableWorkers) → runEvents s es = some r →
      handedOutWhenFree w free r.2 ≠ none
  | [], _, _, _, _, _, _, h => by
    cases h
    simp [handedOutWhenFree]
  | e :: es, s, _, free, hs, hk, hfree, h => by
    simp only [runEvents, Option.bind_eq_bind, Option.bind_eq_some, Option.pure_def,
      Option.some.injEq] at h
    obtain ⟨q, hq, q', hq', rfl⟩ := h
    obtain ⟨hjoin, hcount, hgiven⟩ := handleEvent_regular_worker hw hs hk hq
    have hnext := fun b hb => runEvents_handedOutWhenFree hw (r := q') b
      (handleEvent_workerPoolsDisjoint hs hq) (handleEvent_actorWorkersKeyed hk hq) hb hq'
    have hfree' : (free || e.reportsFree w) = false →
        w ∉ s.algorithmState.availableWorkers ∧ e.reportsFree w = false := by
      simp only [Bool.or_eq_false_iff]
      exact fun ⟨h₁, h₂⟩ => ⟨hfree h₁, h₂⟩
    simp only [handedOutWhenFree, List.cons_append, List.foldlM_cons, handedOutStep,
      List.foldlM_append, Option.pure_def, Option.bind_eq_bind, Option.some_bind] at hnext ⊢
    have hcalls := handedOutWhenFree_calls q.2 (free || e.reportsFree w) hcount
    simp only [handedOutWhenFree] at hcalls
    rw [hcalls]
    split
    · rename_i hmem
      obtain ⟨hwas, hnow⟩ := hgiven hmem
      cases hf : (free || e.reportsFree w)
      · obtain ⟨h₁, h₂⟩ := hfree' hf
        exact absurd (hwas.resolve_left h₁) (by simp [h₂])
      · exact hnext false fun _ => hnow
    · exact hnext _ fun hf hmem => (hjoin hmem).elim (hfree' hf).1 (by simp [(hfree' hf).2])

/-- **The worker pool invariant.** In every reachable state the three pools hold no worker
twice and no worker in two of them. A worker that `dispatch_tasks` hands a task to, from any
state whose pools are disjoint (every handler dispatches from such a state), was available
and is afterwards executing and in no other pool. So over every run from a reachable state,
a regular worker that is handed a task is not handed another one before an event reports it
available. -/
theorem worker_pool_invariant :
    (∀ s : LocalSchedulerState n, Reachable s →
      s.algorithmState.availableWorkers.Nodup ∧ s.algorithmState.executingWorkers.Nodup ∧
        s.algorithmState.blockedWorkers.Nodup ∧
        s.algorithmState.availableWorkers.Disjoint s.algorithmState.executingWorkers ∧
        s.algorithmState.availableWorkers.Disjoint s.algorithmState.blockedWorkers ∧
        s.algorithmState.executingWorkers.Disjoint s.algorithmState.blockedWorkers) ∧
    (∀ s : LocalSchedulerState n, WorkerPoolsDisjoint s →
      ∀ w ∈ (assignments (dispatchTasks s).2).map Prod.snd,
        w ∈ s.algorithmState.availableWorkers ∧
          w ∈ (dispatchTasks s).1.algorithmState.executingWorkers ∧
          w ∉ (dispatchTasks s).1.algorithmState.availableWorkers ∧
          w ∉ (dispatchTasks s).1.algorithmState.blockedWorkers) ∧
    (∀ (s : LocalSchedulerState n) (es : List (Event n))
      (r : LocalSchedulerState n × List (Observation n)), Reachable s → runEvents s es = some r →
      ∀ (w : LocalSchedulerClient) (hw : w.actorId = nilActorId)
        (pre mid post : List (Observation n)) (t t' : TaskQueueEntry n),
        r.2 = pre ++ .call (.assignTaskToWorker t w) ::
          (mid ++ .call (.assignTaskToWorker t' w) :: post) →
        ∃ R, Observation.event (.workerAvailable w R hw) ∈ mid) := by
  refine ⟨fun s hs => workerPoolsDisjoint_iff.1 (reachable_workerPoolsDisjoint hs),
    fun s hs w hw => dispatchTasks_assigned_worker hs hw, ?_⟩
  intro s es r hs h w hw pre mid post t t' hr
  have hscan := runEvents_handedOutWhenFree hw true (reachable_workerPoolsDisjoint hs)
    (reachable_actorWorkersKeyed hs) (by simp) h
  rw [hr] at hscan
  obtain ⟨R, _, hR⟩ := handedOutWhenFree_false (handedOutWhenFree_after hscan)
  exact ⟨R, hR⟩

end Run

end LocalScheduler
