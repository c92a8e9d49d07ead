import LocalScheduler.TrackerInvariant

/-!
# Laws of the tracker's handlers

What the handlers of the dependency tracker do to a state that satisfies the tracker
invariant, in closed form.

* `driver_removal_exact` — `handle_driver_removed` reads only live cursors, keeps exactly the
  tasks of the other drivers in their order, strips the driver's cursors from
  `remote_objects` and erases the entries left empty, keeps the invariant, and does nothing
  the second time.
* `object_round_trip` — removing a local object and getting it back, with no worker
  available, leaves the waiting queue, `local_objects` and `remote_objects` as they were, and
  moves the dispatched tasks that use the object behind the others; it needs that no
  dispatched task passes the object twice.
* `object_round_trip_counterexample` — the dispatch order does change, and a dispatched task
  that passes the object twice makes the arrival fault.
-/

namespace LocalScheduler

variable {n : Nat}

/-! ## Removing a driver -/

section Driver

variable {W : List (Nat × TaskQueueEntry n)} {R : List (ObjectID × List Nat)} {d : WorkerID}

/-- When no waiting task is the driver's, the purge keeps every entry whole. -/
theorem purged_eq_self (hW : ∀ p ∈ W, p.2.spec.driverId ≠ d) (hR : TableWF R)
    (hlive : ∀ p ∈ R, ∀ c ∈ p.2, c ∈ W.map Prod.fst) :
    (R.filterMap fun p =>
      let kept := p.2.filter fun c => c ∈ (W.filter fun q => q.2.spec.driverId ≠ d).map Prod.fst
      if kept.isEmpty then none else some (p.1, kept)) = R := by
  have hWf : W.filter (fun q => q.2.spec.driverId ≠ d) = W :=
    List.filter_eq_self.2 fun q hq => decide_eq_true (hW q hq)
  conv_rhs => rw [← List.filterMap_some R]
  refine List.filterMap_congr fun p hp => ?_
  have hkept : p.2.filter
      (fun c => c ∈ (W.filter fun q => q.2.spec.driverId ≠ d).map Prod.fst) = p.2 := by
    rw [hWf]
    exact List.filter_eq_self.2 fun c hc => decide_eq_true (hlive p hp c hc)
  simp only [hkept, List.isEmpty_iff, hR.entries_nonempty p hp, if_false]

/-- `handle_driver_removed` in closed form, when the waiting cursors are distinct and every
registered cursor has a node. -/
theorem handleDriverRemoved_eq (s : LocalSchedulerState n) (d : WorkerID)
    (hW : (s.algorithmState.waitingTaskQueue.map Prod.fst).Nodup)
    (hlive : ∀ p ∈ s.algorithmState.remoteObjects, ∀ c ∈ p.2,
      c ∈ s.algorithmState.waitingTaskQueue.map Prod.fst) :
    handleDriverRemoved s d = some ({ s with
      algorithmState.waitingTaskQueue :=
        s.algorithmState.waitingTaskQueue.filter fun p => p.2.spec.driverId ≠ d,
      algorithmState.dispatchTaskQueue :=
        s.algorithmState.dispatchTaskQueue.filter fun t => t.spec.driverId ≠ d,
      algorithmState.remoteObjects := s.algorithmState.remoteObjects.filterMap fun p =>
        let kept := p.2.filter fun c => c ∈
          (s.algorithmState.waitingTaskQueue.filter fun q => q.2.spec.driverId ≠ d).map Prod.fst
        if kept.isEmpty then none else some (p.1, kept) }, []) := by
  simp only [handleDriverRemoved, purgeDriverTasks_eq d hW _ hlive, Option.bind_eq_bind,
    Option.some_bind, Option.pure_def]

end Driver

/-- **Driver removal is exact, safe and idempotent.** From a state that satisfies the tracker
invariant, every cursor `handle_driver_removed` dereferences names a live node of the waiting
queue, so it returns. Both queues keep exactly the tasks of the other drivers, in their order;
every entry of `remote_objects` keeps, in order, the cursors of those tasks, and is erased when
none is left; nothing else changes and nothing is called. The invariant holds again, and a
second removal of the same driver changes nothing. -/
theorem driver_removal_exact (s : LocalSchedulerState n) (hs : TrackerInvariant s) (d : WorkerID) :
    (∀ p ∈ s.algorithmState.remoteObjects, ∀ c ∈ p.2,
      c ∈ s.algorithmState.waitingTaskQueue.map Prod.fst) ∧
    ∃ s', handleDriverRemoved s d = some (s', []) ∧
      s' = { s with
        algorithmState.waitingTaskQueue :=
          s.algorithmState.waitingTaskQueue.filter fun p => p.2.spec.driverId ≠ d,
        algorithmState.dispatchTaskQueue :=
          s.algorithmState.dispatchTaskQueue.filter fun t => t.spec.driverId ≠ d,
        algorithmState.remoteObjects := s.algorithmState.remoteObjects.filterMap fun p =>
          let kept := p.2.filter fun c => c ∈
            (s.algorithmState.waitingTaskQueue.filter fun q => q.2.spec.driverId ≠ d).map Prod.fst
          if kept.isEmpty then none else some (p.1, kept) } ∧
      TrackerInvariant s' ∧ handleDriverRemoved s' d = some (s', []) := by
  have hlive : ∀ p ∈ s.algorithmState.remoteObjects, ∀ c ∈ p.2,
      c ∈ s.algorithmState.waitingTaskQueue.map Prod.fst := fun p hp c hc => hs.cursor_mem hp hc
  have hfirst := handleDriverRemoved_eq s d hs.cursors_nodup hlive
  have hs' := hs.handleDriverRemoved hfirst
  refine ⟨hlive, _, hfirst, rfl, hs', ?_⟩
  -- the second purge finds no task of the driver and keeps every entry whole
  have hW : ∀ p ∈ s.algorithmState.waitingTaskQueue.filter (fun p => p.2.spec.driverId ≠ d),
      p.2.spec.driverId ≠ d := fun p hp => of_decide_eq_true (List.mem_filter.1 hp).2
  have hlive' : ∀ p ∈ (s.algorithmState.remoteObjects.filterMap fun p =>
      let kept := p.2.filter fun c => c ∈
        (s.algorithmState.waitingTaskQueue.filter fun q => q.2.spec.driverId ≠ d).map Prod.fst
      if kept.isEmpty then none else some (p.1, kept)), ∀ c ∈ p.2,
      c ∈ (s.algorithmState.waitingTaskQueue.filter fun p => p.2.spec.driverId ≠ d).map
        Prod.fst :=
    fun p hp c hc => Tracks.cursor_mem hs' hp hc
  rw [handleDriverRemoved_eq _ d hs'.cursors_nodup hlive', purged_eq_self hW hs'.table hlive']
  simp only [List.filter_filter, Bool.and_self]

/-! ### A run -/

/-- A regular task of driver `1` that passes object `3` by reference. -/
def driverOneTask : TaskSpec 1 := ⟨1, nilActorId, 0, [.byRef 3], fun _ => 0⟩

/-- The global scheduler places a task of driver `0` that waits on objects `3` and `4`, then a
task of driver `1` that waits on `3`. -/
def sharedWaitEvents : List (Event 1) :=
  [.taskScheduled twoArgTask 0 rfl, .taskScheduled driverOneTask 0 rfl]

/-- The end of that run. -/
def sharedWaitRun : LocalSchedulerState 1 × List (Observation 1) :=
  (runEvents trackerNode sharedWaitEvents).getD (trackerNode, [])

theorem runEvents_sharedWait : runEvents trackerNode sharedWaitEvents = some sharedWaitRun :=
  rfl

/-- Removing driver `0` keeps driver `1`'s cursor under `3` and erases the entry of `4`. -/
example : sharedWaitRun.1.algorithmState.remoteObjects = [(3, [1, 3]), (4, [1])] ∧
    (handleDriverRemoved sharedWaitRun.1 0).map (·.1.algorithmState.remoteObjects) =
      some [(3, [3])] := by
  decide

theorem driver_removal_exact_sharedWait :
    TrackerInvariant sharedWaitRun.1 ∧
    (∀ p ∈ sharedWaitRun.1.algorithmState.remoteObjects, ∀ c ∈ p.2,
      c ∈ sharedWaitRun.1.algorithmState.waitingTaskQueue.map Prod.fst) ∧
    ∃ s', handleDriverRemoved sharedWaitRun.1 0 = some (s', []) ∧
      s' = { sharedWaitRun.1 with
        algorithmState.waitingTaskQueue :=
          sharedWaitRun.1.algorithmState.waitingTaskQueue.filter fun p => p.2.spec.driverId ≠ 0,
        algorithmState.dispatchTaskQueue :=
          sharedWaitRun.1.algorithmState.dispatchTaskQueue.filter fun t => t.spec.driverId ≠ 0,
        algorithmState.remoteObjects := sharedWaitRun.1.algorithmState.remoteObjects.filterMap
          fun p =>
            let kept := p.2.filter fun c => c ∈
              (sharedWaitRun.1.algorithmState.waitingTaskQueue.filter
                fun q => q.2.spec.driverId ≠ 0).map Prod.fst
            if kept.isEmpty then none else some (p.1, kept) } ∧
      TrackerInvariant s' ∧ handleDriverRemoved s' 0 = some (s', []) :=
  have h := reachable_trackerInvariant (runEvents_reachable (.init rfl) runEvents_sharedWait)
  ⟨h, driver_removal_exact _ h 0⟩

/-! ## Removing an object and getting it back -/

section RoundTrip

variable {s : LocalSchedulerState n} {O : ObjectID}

/-- `handle_object_removed` in closed form: the dispatched tasks that use the object go, in
their order and in new nodes `N` at the next addresses, to the back of the waiting queue; then
every waiting use of the object is registered. -/
theorem handleObjectRemoved_eq (hO : s.algorithmState.localObjects O = true) :
    ∃ N : List (Nat × TaskQueueEntry n),
      N.map Prod.snd =
        s.algorithmState.dispatchTaskQueue.filter (fun t => t.spec.isDependentOn O) ∧
      N.map Prod.fst = List.range' s.nextAddress N.length ∧
      handleObjectRemoved s O = some (refetchRemoved O (s.algorithmState.waitingTaskQueue ++ N)
        { s with
          nextAddress := s.nextAddress + N.length,
          algorithmState.waitingTaskQueue := s.algorithmState.waitingTaskQueue ++ N,
          algorithmState.dispatchTaskQueue :=
            s.algorithmState.dispatchTaskQueue.filter fun t => !t.spec.isDependentOn O,
          algorithmState.localObjects :=
            Function.update s.algorithmState.localObjects O false }) := by
  obtain ⟨N, h₁, h₂, h₃⟩ := requeueDependentTasks_eq O s.algorithmState.dispatchTaskQueue
    { s with algorithmState.localObjects := Function.update s.algorithmState.localObjects O false }
  refine ⟨N, h₁, h₂, ?_⟩
  simp only [handleObjectRemoved, check_bind, if_pos hO, h₃, Option.pure_def]

/-- With no available worker, `handle_object_available` is its loop over the object's
dependents; the dispatch that follows changes nothing and at most asks for a worker. -/
theorem handleObjectAvailable_of_availableWorkers_nil {a' : SchedulingAlgorithmState n}
    (hw : s.algorithmState.availableWorkers = []) (hL : s.algorithmState.localObjects O = false)
    (hmove : moveDependentTasks (dependentsIn s.algorithmState.remoteObjects O)
      { s.algorithmState with
        remoteObjects := s.algorithmState.remoteObjects.filter fun p => p.1 ≠ O,
        localObjects := Function.update s.algorithmState.localObjects O true } = some a') :
    ∃ calls, handleObjectAvailable s O = some ({ s with algorithmState := a' }, calls) ∧
      ∀ e ∈ calls, e = .startWorker nilActorId := by
  simp only [handleObjectAvailable, check_bind, if_pos hL]
  split
  · rename_i hnil
    rw [show dependentsIn s.algorithmState.remoteObjects O = [] from List.isEmpty_iff.1 hnil]
      at hmove
    cases hmove
    exact ⟨[], rfl, List.forall_mem_nil _⟩
  · obtain ⟨W, D, rfl⟩ := moveDependentTasks_frame hmove
    obtain ⟨h₁, h₂⟩ := dispatchTasks_of_availableWorkers_nil
      (s := { s with algorithmState := { s.algorithmState with
        remoteObjects := s.algorithmState.remoteObjects.filter fun p => p.1 ≠ O,
        localObjects := Function.update s.algorithmState.localObjects O true,
        waitingTaskQueue := W, dispatchTaskQueue := D } }) hw
    refine ⟨_, ?_, h₂⟩
    simp only [dependentsIn] at hmove
    simp only [hmove, Option.bind_eq_bind, Option.some_bind, Option.pure_def]
    exact congrArg some (Prod.ext h₁ rfl)

/-- **Removing an object and getting it back.** From a reachable state in which the object is
local and no worker is available, and in which no dispatched task passes the object by
reference twice, `handle_object_removed` and then `handle_object_available` both return. The
waiting queue, `local_objects` and `remote_objects` are as before. The dispatch queue holds
the same tasks, but those that use the object come back behind the others: each part keeps its
order. The only calls are fetches of the object and requests for a worker. -/
theorem object_round_trip (s : LocalSchedulerState n) (hs : Reachable s) (O : ObjectID)
    (hO : s.algorithmState.localObjects O = true) (hw : s.algorithmState.availableWorkers = [])
    (hdup : ∀ t ∈ s.algorithmState.dispatchTaskQueue, t.spec.refIds.count O ≤ 1) :
    ∃ r₁ r₂, handleObjectRemoved s O = some r₁ ∧ handleObjectAvailable r₁.1 O = some r₂ ∧
      r₂.1.algorithmState.waitingTaskQueue = s.algorithmState.waitingTaskQueue ∧
      r₂.1.algorithmState.dispatchTaskQueue =
        s.algorithmState.dispatchTaskQueue.filter (fun t => !t.spec.isDependentOn O) ++
          s.algorithmState.dispatchTaskQueue.filter (fun t => t.spec.isDependentOn O) ∧
      r₂.1.algorithmState.localObjects = s.algorithmState.localObjects ∧
      r₂.1.algorithmState.remoteObjects = s.algorithmState.remoteObjects ∧
      ∀ e ∈ r₁.2 ++ r₂.2, e = .plasmaFetch [O] ∨ e = .startWorker nilActorId := by
  have h := reachable_trackerInvariant hs
  obtain ⟨N, hNsnd, hNfst, hrem⟩ := handleObjectRemoved_eq hO
  set W := s.algorithmState.waitingTaskQueue
  set D := s.algorithmState.dispatchTaskQueue
  set L := s.algorithmState.localObjects
  set s₂ : LocalSchedulerState n := { s with
    nextAddress := s.nextAddress + N.length,
    algorithmState.waitingTaskQueue := W ++ N,
    algorithmState.dispatchTaskQueue := D.filter fun t => !t.spec.isDependentOn O,
    algorithmState.localObjects := Function.update L O false }
  set r₁ := refetchRemoved O (W ++ N) s₂
  have hLL : Function.update (Function.update L O false) O true = L := by
    rw [Function.update_idem, ← hO, Function.update_eq_self]
  -- what the removal leaves: the new nodes, at fresh cursors, behind the old ones
  have hr₁W : r₁.1.algorithmState.waitingTaskQueue = W ++ N :=
    (refetchRemoved_fields O _ s₂).1
  have hNin : ∀ p ∈ N, p.2 ∈ D ∧ p.2.spec.isDependentOn O := fun p hp =>
    List.mem_filter.1 (hNsnd ▸ List.mem_map_of_mem Prod.snd hp)
  have hnodup : ((W ++ N).map Prod.fst).Nodup :=
    hr₁W ▸ (h.handleObjectRemoved hrem).cursors_nodup
  have hfresh : ∀ p ∈ W, p.1 ∉ N.map Prod.fst := fun p hp =>
    List.disjoint_of_nodup_append (List.map_append _ _ _ ▸ hnodup) (List.mem_map_of_mem _ hp)
  have hr₁D : r₁.1.algorithmState.dispatchTaskQueue =
      D.filter fun t => !t.spec.isDependentOn O := (refetchRemoved_fields O _ s₂).2.1
  have hr₁L : r₁.1.algorithmState.localObjects = Function.update L O false :=
    (refetchRemoved_fields O _ s₂).2.2.1
  have hr₁w : r₁.1.algorithmState.availableWorkers = [] :=
    (refetchRemoved_trackerStep O _ s₂).queues.pools.available.trans hw
  have hr₁R : r₁.1.algorithmState.remoteObjects.filter (fun p => p.1 ≠ O) =
      s.algorithmState.remoteObjects.filter fun p => p.1 ≠ O :=
    refetchRemoved_filter_ne O _ s₂
  have hRO : s.algorithmState.remoteObjects.filter (fun p => p.1 ≠ O) =
      s.algorithmState.remoteObjects :=
    List.filter_eq_self.2 fun p hp => decide_eq_true fun he =>
      h.table.dependentsIn_ne_nil (he ▸ List.mem_map_of_mem Prod.fst hp)
        (h.dependentsIn_eq_nil hO)
  have hcount : ∀ p ∈ N, p.2.spec.refIds.count O = 1 := fun p hp => by
    have := List.count_pos_iff.2 (of_decide_eq_true (hNin p hp).2)
    have := hdup p.2 (hNin p hp).1
    omega
  have hdeps : dependentsIn r₁.1.algorithmState.remoteObjects O =
      expectedDependents W O ++ N.map Prod.fst := by
    rw [dependentsIn_refetchRemoved, if_pos rfl]
    refine (congrArg (· ++ _) (h.dependentsIn_eq_nil hO)).trans ?_
    rw [List.nil_append, expectedDependents_append, expectedDependents_eq_map_fst hcount]
  -- the arrival passes over the old waiting tasks and moves the new nodes back, in order
  have hmove := moveDependentTasks_append (expectedDependents W O) (N.map Prod.fst)
    { r₁.1.algorithmState with
      remoteObjects := r₁.1.algorithmState.remoteObjects.filter fun p => p.1 ≠ O,
      localObjects := Function.update r₁.1.algorithmState.localObjects O true }
  rw [moveDependentTasks_skip fun c (hc : c ∈ expectedDependents W O) => ?skip, Option.some_bind,
    moveDependentTasks_promote (by rw [hr₁W]; exact hnodup) (hNfst ▸ List.nodup_range' _ _)
      fun p hp => ?promote, ← hdeps] at hmove
  case skip =>
    obtain ⟨p, hp, rfl, -⟩ := mem_expectedDependents.1 hc
    refine ⟨p.2, by rw [hr₁W]; exact lookup_eq_of_mem hnodup (List.mem_append_left _ hp), ?_⟩
    rw [canRun_eq_false_iff]
    simpa only [hr₁L, hLL] using h.waiting_missing p hp
  case promote =>
    refine ⟨by rw [hr₁W]; exact List.mem_append_right _ hp, List.all_eq_true.2 fun o ho => ?_⟩
    simpa only [hr₁L, hLL] using h.dispatch_local p.2 (hNin p hp).1 o ho
  obtain ⟨calls, havail, hcalls⟩ := handleObjectAvailable_of_availableWorkers_nil hr₁w
    (by rw [hr₁L]; exact Function.update_same _ _ _) hmove
  refine ⟨r₁, _, hrem, havail, ?_, ?_, ?_, ?_, fun e he => ?_⟩
  · show r₁.1.algorithmState.waitingTaskQueue.filter _ = W
    rw [hr₁W, List.filter_append, List.filter_eq_self.2 fun p hp => decide_eq_true (hfresh p hp),
      List.filter_eq_nil_iff.2 fun p hp h =>
        (of_decide_eq_true h : p.1 ∉ N.map Prod.fst) (List.mem_map_of_mem Prod.fst hp),
      List.append_nil]
  · show r₁.1.algorithmState.dispatchTaskQueue ++ N.map Prod.snd = _
    rw [hr₁D, hNsnd]
  · show Function.update r₁.1.algorithmState.localObjects O true = L
    rw [hr₁L, hLL]
  · exact hr₁R.trans hRO
  · rcases List.mem_append.1 he with he | he
    · exact .inl (refetchRemoved_calls O _ _ e he)
    · exact .inr (hcalls e he)

end RoundTrip

/-! ### Runs -/

/-- A regular task of driver `0` that passes object `3` by reference, and one with no
argument. -/
def usesThreeTask : TaskSpec 1 := ⟨0, nilActorId, 0, [.byRef 3], fun _ => 0⟩

def plainTask : TaskSpec 1 := ⟨0, nilActorId, 0, [], fun _ => 0⟩

/-- Object `3` arrives; then the global scheduler places a task that uses it and a task that
uses nothing. No worker has connected, so both stay in the dispatch queue, in that order. -/
def reorderEvents : List (Event 1) :=
  [.objectAvailable 3, .taskScheduled usesThreeTask 0 rfl, .taskScheduled plainTask 0 rfl]

/-- The end of that run. -/
def reorderRun : LocalSchedulerState 1 × List (Observation 1) :=
  (runEvents trackerNode reorderEvents).getD (trackerNode, [])

theorem runEvents_reorder : runEvents trackerNode reorderEvents = some reorderRun :=
  rfl

/-- Object `3` arrives; then the global scheduler places a task that passes it twice. -/
def duplicateEvents : List (Event 1) :=
  [.objectAvailable 3, .taskScheduled duplicateRefTask 0 rfl]

/-- The end of that run. -/
def duplicateRun : LocalSchedulerState 1 × List (Observation 1) :=
  (runEvents trackerNode duplicateEvents).getD (trackerNode, [])

theorem runEvents_duplicate : runEvents trackerNode duplicateEvents = some duplicateRun :=
  rfl

theorem object_round_trip_reorder :
    (Reachable reorderRun.1 ∧ reorderRun.1.algorithmState.localObjects 3 = true ∧
      reorderRun.1.algorithmState.availableWorkers = [] ∧
      ∀ t ∈ reorderRun.1.algorithmState.dispatchTaskQueue, t.spec.refIds.count 3 ≤ 1) ∧
    ∃ r₁ r₂, handleObjectRemoved reorderRun.1 3 = some r₁ ∧
      handleObjectAvailable r₁.1 3 = some r₂ ∧
      r₂.1.algorithmState.waitingTaskQueue = reorderRun.1.algorithmState.waitingTaskQueue ∧
      r₂.1.algorithmState.dispatchTaskQueue =
        reorderRun.1.algorithmState.dispatchTaskQueue.filter
            (fun t => !t.spec.isDependentOn 3) ++
          reorderRun.1.algorithmState.dispatchTaskQueue.filter (fun t => t.spec.isDependentOn 3) ∧
      r₂.1.algorithmState.localObjects = reorderRun.1.algorithmState.localObjects ∧
      r₂.1.algorithmState.remoteObjects = reorderRun.1.algorithmState.remoteObjects ∧
      ∀ e ∈ r₁.2 ++ r₂.2, e = .plasmaFetch [3] ∨ e = .startWorker nilActorId :=
  have hs := runEvents_reachable (.init rfl) runEvents_reorder
  have hpre : reorderRun.1.algorithmState.localObjects 3 = true ∧
      reorderRun.1.algorithmState.availableWorkers = [] ∧
      ∀ t ∈ reorderRun.1.algorithmState.dispatchTaskQueue, t.spec.refIds.count 3 ≤ 1 := by
    decide
  ⟨⟨hs, hpre⟩, object_round_trip reorderRun.1 hs 3 hpre.1 hpre.2.1 hpre.2.2⟩

/-- **The round trip does not restore the dispatch queue, and can fault.** In the first run,
the dispatch queue holds the task that uses `3` ahead of the other; after `3` is removed and
comes back, it holds them the other way round. In the second run, the dispatched task passes
`3` twice: the removal registers its new node twice with `3`, and the arrival moves the task
at the first copy and reads the erased node at the second. -/
theorem object_round_trip_counterexample :
    (Reachable reorderRun.1 ∧ reorderRun.1.algorithmState.localObjects 3 = true ∧
      reorderRun.1.algorithmState.availableWorkers = [] ∧
      reorderRun.1.algorithmState.dispatchTaskQueue.map (·.specAddr) = [0, 1] ∧
      ((handleObjectRemoved reorderRun.1 3).bind fun r => handleObjectAvailable r.1 3).map
        (·.1.algorithmState.dispatchTaskQueue.map (·.specAddr)) = some [1, 0]) ∧
    (Reachable duplicateRun.1 ∧ duplicateRun.1.algorithmState.localObjects 3 = true ∧
      duplicateRun.1.algorithmState.availableWorkers = [] ∧
      ((handleObjectRemoved duplicateRun.1 3).bind fun r => handleObjectAvailable r.1 3) = none) :=
  ⟨⟨runEvents_reachable (.init rfl) runEvents_reorder, by decide⟩,
    runEvents_reachable (.init rfl) runEvents_duplicate, by decide, by decide,
    Option.isNone_iff_eq_none.1 (by decide)⟩

end LocalScheduler
