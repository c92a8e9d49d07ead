import LocalScheduler.TrackerInvariant

/-!
# Actor notifications

The two handlers of the actor path that learn where an actor lives: the creation notification,
which resubmits the actor tasks cached while their actor's location was unknown, and the
scheduling of an actor task by the global scheduler, which may overtake that notification.

* `actor_creation_replay` — `handle_actor_creation_notification` is
  `handle_actor_task_submitted` run once on each cached pair, in index order
  (`submitActorTasks`); afterwards the arrays hold the pairs that were cached again, those
  whose actor still has no location, in their order; and a second notification changes
  nothing.
* `handleActorTaskScheduled_lateNotification` — a task scheduled for an actor whose location
  is not known yet is queued, and then `dispatch_actor_task` fails its `CHECK` that the actor
  is mapped: the late notification the source's comment calls tolerated ends the run.
-/

namespace LocalScheduler

variable {n : Nat}

/-! ## The cached arrays -/

/-- The two arrays of actor tasks submitted while their actor's location was unknown. -/
def SchedulingAlgorithmState.cachedArrays (a : SchedulingAlgorithmState n) :
    List (TaskSpec n) × List Int :=
  (a.cachedSubmittedActorTasks, a.cachedSubmittedActorTaskSizes)

/-- The arrays `c` with the pairs `ps` appended, each half to its array. -/
def appendCached (c : List (TaskSpec n) × List Int) (ps : List (TaskSpec n × Int)) :
    List (TaskSpec n) × List Int :=
  (c.1 ++ ps.map Prod.fst, c.2 ++ ps.map Prod.snd)

open SchedulingAlgorithmState

@[simp] theorem appendCached_nil (c : List (TaskSpec n) × List Int) : appendCached c [] = c := by
  simp [appendCached]

theorem appendCached_append (c : List (TaskSpec n) × List Int) (ps qs : List (TaskSpec n × Int)) :
    appendCached (appendCached c ps) qs = appendCached c (ps ++ qs) := by
  simp [appendCached]

section Cache

variable {s : LocalSchedulerState n} {spec : TaskSpec n} {size : Int}

@[simp] theorem setActorInfo_cachedArrays (a : SchedulingAlgorithmState n) (A : ActorID)
    (o : Option (LocalActorInfo n)) : (a.setActorInfo A o).cachedArrays = a.cachedArrays :=
  rfl

theorem addTaskToActorQueue_cachedArrays {g : Bool} {r : LocalSchedulerState n × List (Effect n)}
    (h : addTaskToActorQueue s spec size g = some r) :
    r.1.algorithmState.cachedArrays = s.algorithmState.cachedArrays := by
  simp only [addTaskToActorQueue, check_bind, Option.ite_none_right_eq_some, Option.bind_eq_bind,
    Option.bind_eq_some, Option.pure_def, Option.some.injEq] at h
  obtain ⟨-, a, ha, -, -, -, rfl⟩ := h
  split at ha
  · obtain ⟨I, rfl, -⟩ := createActor_actorOps (by simp) ha
    rfl
  · cases ha
    rfl

theorem dispatchActorTask_cachedArrays {A : ActorID}
    {r : LocalSchedulerState n × List (Effect n) × Bool} (h : dispatchActorTask s A = some r) :
    r.1.algorithmState.cachedArrays = s.algorithmState.cachedArrays := by
  obtain ⟨-, -, -, ⟨-, rfl⟩ | ⟨-, -, -, -, -, -, -, rfl⟩⟩ := dispatchActorTask_cases h
  all_goals rfl

/-- `handle_actor_task_submitted` checks the actor, appends the pair to the cached arrays when
the actor has no location, leaves them alone otherwise, and never changes `actor_mapping`. -/
theorem handleActorTaskSubmitted_cachedArrays {r : LocalSchedulerState n × List (Effect n)}
    (h : handleActorTaskSubmitted s spec size = some r) :
    spec.actorId ≠ nilActorId ∧ r.1.actorMapping = s.actorMapping ∧
      r.1.algorithmState.cachedArrays = appendCached s.algorithmState.cachedArrays
        ([(spec, size)].filter fun p => (s.actorMapping p.1.actorId).isNone) := by
  have hmap := (handleActorTaskSubmitted_actorPathStep h).frame.config.actorMapping
  simp only [handleActorTaskSubmitted, check_bind, Option.ite_none_right_eq_some] at h
  obtain ⟨hA, h⟩ := h
  refine ⟨hA, hmap, ?_⟩
  split at h
  · rename_i hm
    cases h
    simp [hm, appendCached, cachedArrays]
  · rename_i B hm
    simp only [hm, List.filter_singleton, Option.isNone_some, cond_false, appendCached_nil]
    simp only [Option.bind_eq_bind, Option.bind_eq_some] at h
    obtain ⟨db, -, h⟩ := h
    split at h
    · simp only [Option.bind_eq_bind, Option.bind_eq_some, Option.pure_def,
        Option.some.injEq] at h
      obtain ⟨q, hq, d, hd, rfl⟩ := h
      exact (dispatchActorTask_cachedArrays hd).trans (addTaskToActorQueue_cachedArrays hq)
    · rw [giveTaskToLocalScheduler_eq h]

end Cache

/-! ## Replaying the cached tasks -/

/-- Hand each pair to `handle_actor_task_submitted` in turn, threading the state and collecting
the calls: what the creation notification is to do with its cached pairs. -/
def submitActorTasks :
    List (TaskSpec n × Int) → LocalSchedulerState n →
      Option (LocalSchedulerState n × List (Effect n))
  | [], s => some (s, [])
  | (spec, size) :: rest, s => do
    let r ← handleActorTaskSubmitted s spec size
    let r' ← submitActorTasks rest r.1
    pure (r'.1, r.2 ++ r'.2)

section Replay

/-- Submitting pairs checks every actor, appends to the cached arrays the pairs whose actor has
no location, in their order, and leaves `actor_mapping` alone. -/
theorem submitActorTasks_cachedArrays :
    ∀ (ps : List (TaskSpec n × Int)) (s : LocalSchedulerState n)
      (r : LocalSchedulerState n × List (Effect n)), submitActorTasks ps s = some r →
        (∀ p ∈ ps, p.1.actorId ≠ nilActorId) ∧ r.1.actorMapping = s.actorMapping ∧
        r.1.algorithmState.cachedArrays = appendCached s.algorithmState.cachedArrays
          (ps.filter fun p => (s.actorMapping p.1.actorId).isNone)
  | [], s, r, h => by
    cases h
    simp
  | (spec, size) :: rest, s, r, h => by
    simp only [submitActorTasks, Option.bind_eq_bind, Option.bind_eq_some, Option.pure_def,
      Option.some.injEq] at h
    obtain ⟨q, hq, q', hq', rfl⟩ := h
    obtain ⟨hA, hmap, hc⟩ := handleActorTaskSubmitted_cachedArrays hq
    obtain ⟨hA', hmap', hc'⟩ := submitActorTasks_cachedArrays rest q.1 q' hq'
    refine ⟨List.forall_mem_cons.2 ⟨hA, hA'⟩, hmap'.trans hmap, ?_⟩
    rw [hc', hc, hmap, appendCached_append, ← List.filter_append]
    rfl

/-- Pairs whose actors have no location are only cached again. -/
theorem submitActorTasks_of_unmapped :
    ∀ (ps : List (TaskSpec n × Int)) (s : LocalSchedulerState n),
      (∀ p ∈ ps, p.1.actorId ≠ nilActorId ∧ s.actorMapping p.1.actorId = none) →
        submitActorTasks ps s = some ({ s with
          algorithmState.cachedSubmittedActorTasks :=
            s.algorithmState.cachedSubmittedActorTasks ++ ps.map Prod.fst,
          algorithmState.cachedSubmittedActorTaskSizes :=
            s.algorithmState.cachedSubmittedActorTaskSizes ++ ps.map Prod.snd }, [])
  | [], s, _ => by simp [submitActorTasks]
  | (spec, size) :: rest, s, h => by
    obtain ⟨⟨hA, hm⟩, hrest⟩ := List.forall_mem_cons.1 h
    simp only [submitActorTasks, handleActorTaskSubmitted, check_bind, if_pos hA, hm,
      Option.pure_def, Option.bind_eq_bind, Option.some_bind]
    rw [submitActorTasks_of_unmapped rest { s with
      algorithmState.cachedSubmittedActorTasks :=
        s.algorithmState.cachedSubmittedActorTasks ++ [spec],
      algorithmState.cachedSubmittedActorTaskSizes :=
        s.algorithmState.cachedSubmittedActorTaskSizes ++ [size] } hrest]
    simp

/-- The loop of `handle_actor_creation_notification` reads, at each of its indices, the pair
cached there when the call began: its body only appends to the arrays it walks. -/
theorem replayCachedActorTasks_eq (P : List (TaskSpec n × Int)) :
    ∀ (k i : Nat) (s : LocalSchedulerState n), i + k = P.length →
      P.map Prod.fst <+: s.algorithmState.cachedSubmittedActorTasks →
      P.map Prod.snd <+: s.algorithmState.cachedSubmittedActorTaskSizes →
      replayCachedActorTasks k i s = submitActorTasks (P.drop i) s
  | 0, i, s, hk, _, _ => by
    rw [show i = P.length by omega, List.drop_length]
    rfl
  | k + 1, i, s, hk, hC, hZ => by
    have hi : i < P.length := by omega
    have hspec : s.algorithmState.cachedSubmittedActorTasks[i]? = some P[i].1 := by
      obtain ⟨C, hC⟩ := hC
      rw [← hC, List.getElem?_append_left (by simpa using hi), List.getElem?_map,
        List.getElem?_eq_getElem hi]
      rfl
    have hsize : s.algorithmState.cachedSubmittedActorTaskSizes[i]? = some P[i].2 := by
      obtain ⟨Z, hZ⟩ := hZ
      rw [← hZ, List.getElem?_append_left (by simpa using hi), List.getElem?_map,
        List.getElem?_eq_getElem hi]
      rfl
    rw [List.drop_eq_getElem_cons hi]
    simp only [replayCachedActorTasks, submitActorTasks, hspec, hsize, Option.bind_eq_bind,
      Option.some_bind]
    cases hr : handleActorTaskSubmitted s P[i].1 P[i].2 with
    | none => rfl
    | some r =>
      obtain ⟨-, -, hc⟩ := handleActorTaskSubmitted_cachedArrays hr
      simp only [cachedArrays, appendCached, Prod.mk.injEq] at hc
      simp only [Option.some_bind]
      rw [replayCachedActorTasks_eq P k (i + 1) r.1 (by omega)
        (hC.trans (hc.1 ▸ List.prefix_append _ _)) (hZ.trans (hc.2 ▸ List.prefix_append _ _))]

/-- `handle_actor_creation_notification`, on arrays of equal length, is `submitActorTasks` on
the cached pairs, followed by the erasure of as many entries as there were pairs. -/
theorem handleActorCreationNotification_eq (s : LocalSchedulerState n) (A : ActorID)
    (hlen : s.algorithmState.cachedSubmittedActorTasks.length =
      s.algorithmState.cachedSubmittedActorTaskSizes.length) :
    handleActorCreationNotification s A =
      (submitActorTasks (s.algorithmState.cachedSubmittedActorTasks.zip
          s.algorithmState.cachedSubmittedActorTaskSizes) s).map fun r =>
        ({ r.1 with
          algorithmState.cachedSubmittedActorTasks :=
            r.1.algorithmState.cachedSubmittedActorTasks.drop
              s.algorithmState.cachedSubmittedActorTasks.length,
          algorithmState.cachedSubmittedActorTaskSizes :=
            r.1.algorithmState.cachedSubmittedActorTaskSizes.drop
              s.algorithmState.cachedSubmittedActorTasks.length }, r.2) := by
  have hP := replayCachedActorTasks_eq (s.algorithmState.cachedSubmittedActorTasks.zip
    s.algorithmState.cachedSubmittedActorTaskSizes)
    s.algorithmState.cachedSubmittedActorTasks.length 0 s
    (by simp [hlen]) (by rw [List.map_fst_zip _ _ hlen.le]) (by rw [List.map_snd_zip _ _ hlen.ge])
  simp only [handleActorCreationNotification, check_bind, if_pos hlen, hP, List.drop_zero,
    Option.bind_eq_bind]
  cases submitActorTasks _ s <;> rfl

/-- When the notification returns, its calls are those of `submitActorTasks` on the cached
pairs, which all name an actor, `actor_mapping` is as before, and the arrays hold the pairs
whose actor still has no location. -/
theorem handleActorCreationNotification_some {s : LocalSchedulerState n} {A : ActorID}
    {r : LocalSchedulerState n × List (Effect n)}
    (hlen : s.algorithmState.cachedSubmittedActorTasks.length =
      s.algorithmState.cachedSubmittedActorTaskSizes.length)
    (h : handleActorCreationNotification s A = some r) :
    ∃ r₀, submitActorTasks (s.algorithmState.cachedSubmittedActorTasks.zip
        s.algorithmState.cachedSubmittedActorTaskSizes) s = some r₀ ∧
      (∀ p ∈ s.algorithmState.cachedSubmittedActorTasks.zip
        s.algorithmState.cachedSubmittedActorTaskSizes, p.1.actorId ≠ nilActorId) ∧
      r₀.1.actorMapping = s.actorMapping ∧
      r = ({ r₀.1 with
        algorithmState.cachedSubmittedActorTasks :=
          ((s.algorithmState.cachedSubmittedActorTasks.zip
            s.algorithmState.cachedSubmittedActorTaskSizes).filter
              fun p => (s.actorMapping p.1.actorId).isNone).map Prod.fst,
        algorithmState.cachedSubmittedActorTaskSizes :=
          ((s.algorithmState.cachedSubmittedActorTasks.zip
            s.algorithmState.cachedSubmittedActorTaskSizes).filter
              fun p => (s.actorMapping p.1.actorId).isNone).map Prod.snd }, r₀.2) := by
  rw [handleActorCreationNotification_eq s A hlen, Option.map_eq_some'] at h
  obtain ⟨r₀, hr₀, rfl⟩ := h
  obtain ⟨hA, hmap, hc⟩ := submitActorTasks_cachedArrays _ s r₀ hr₀
  simp only [cachedArrays, appendCached, Prod.mk.injEq] at hc
  refine ⟨r₀, hr₀, hA, hmap, ?_⟩
  rw [hc.1, hc.2, List.drop_left, List.drop_left' hlen.symm]

/-- **Cached actor-task replay.** On arrays of equal length `N`, whatever actor the
notification names, `handle_actor_creation_notification` hands each of the `N` cached pairs to
`handle_actor_task_submitted` once, in index order, with the size from the same index, and then
erases `N` entries of both arrays. When it returns, `actor_mapping` is as before, and the
arrays are the pairs whose actor still has no location, in their order and index-aligned: the
others were handled, none was lost or handled twice. A second notification, with
`actor_mapping` unchanged, changes nothing and calls nothing. -/
theorem actor_creation_replay (s : LocalSchedulerState n) (A : ActorID)
    (hlen : s.algorithmState.cachedSubmittedActorTasks.length =
      s.algorithmState.cachedSubmittedActorTaskSizes.length) :
    handleActorCreationNotification s A =
      (submitActorTasks (s.algorithmState.cachedSubmittedActorTasks.zip
          s.algorithmState.cachedSubmittedActorTaskSizes) s).map (fun r =>
        ({ r.1 with
          algorithmState.cachedSubmittedActorTasks :=
            r.1.algorithmState.cachedSubmittedActorTasks.drop
              s.algorithmState.cachedSubmittedActorTasks.length,
          algorithmState.cachedSubmittedActorTaskSizes :=
            r.1.algorithmState.cachedSubmittedActorTaskSizes.drop
              s.algorithmState.cachedSubmittedActorTasks.length }, r.2)) ∧
    ∀ r, handleActorCreationNotification s A = some r →
      r.1.actorMapping = s.actorMapping ∧
      r.1.algorithmState.cachedArrays =
        ((s.algorithmState.cachedSubmittedActorTasks.zip
          s.algorithmState.cachedSubmittedActorTaskSizes).filter
            fun p => (s.actorMapping p.1.actorId).isNone).unzip ∧
      ∀ A', handleActorCreationNotification r.1 A' = some (r.1, []) := by
  refine ⟨handleActorCreationNotification_eq s A hlen, fun r hr => ?_⟩
  obtain ⟨r₀, -, hA, hmap, rfl⟩ := handleActorCreationNotification_some hlen hr
  set F := (s.algorithmState.cachedSubmittedActorTasks.zip
    s.algorithmState.cachedSubmittedActorTaskSizes).filter
      fun p => (s.actorMapping p.1.actorId).isNone
  refine ⟨hmap, by simp only [cachedArrays, List.unzip_eq_map], fun A' => ?_⟩
  -- the second notification only caches the same pairs again
  set t : LocalSchedulerState n := { r₀.1 with
    algorithmState.cachedSubmittedActorTasks := F.map Prod.fst,
    algorithmState.cachedSubmittedActorTaskSizes := F.map Prod.snd }
  have hF : ∀ p ∈ F, p.1.actorId ≠ nilActorId ∧ t.actorMapping p.1.actorId = none := by
    intro p hp
    obtain ⟨hp, hnone⟩ := List.mem_filter.1 hp
    exact ⟨hA p hp, hmap ▸ Option.isNone_iff_eq_none.1 hnone⟩
  have hlen' : (F.map Prod.snd).length = (F.map Prod.fst).length := by simp only [List.length_map]
  rw [handleActorCreationNotification_eq t A' hlen'.symm,
    ← List.zip_of_prod (show F.map Prod.fst = F.map Prod.fst from rfl) rfl,
    submitActorTasks_of_unmapped F t hF, Option.map_some']
  simp only [t, List.drop_left, List.drop_left' hlen']

end Replay

/-- A task for actor `5` and a task for actor `6`, both of driver `0` with counter `0`. -/
def cachedFiveTask : TaskSpec 1 := ⟨0, 5, 0, [], fun _ => 0⟩

def cachedSixTask : TaskSpec 1 := ⟨0, 6, 0, [], fun _ => 0⟩

/-- Both tasks are submitted while neither actor's location is known, so both are cached; then
the actor table says that `5` lives here. -/
def cachedEvents : List (Event 1) :=
  [.actorTaskSubmitted cachedFiveTask 7, .actorTaskSubmitted cachedSixTask 9,
    .actorMappingAdded 5 1]

/-- The end of that run. -/
def cachedRun : LocalSchedulerState 1 × List (Observation 1) :=
  (runEvents trackerNode cachedEvents).getD (trackerNode, [])

/-- The notification queues the task of `5` and caches the task of `6` again, with its size. -/
example : (cachedRun.1.algorithmState.cachedSubmittedActorTaskSizes = [7, 9]) ∧
    (handleActorCreationNotification cachedRun.1 5).map (fun r =>
      (r.1.algorithmState.cachedSubmittedActorTaskSizes,
        (r.1.algorithmState.localActorInfos 5).map (·.taskQueue.map (·.specAddr)))) =
      some ([9], some [0]) := by
  decide

theorem actor_creation_replay_cachedRun :
    cachedRun.1.algorithmState.cachedSubmittedActorTasks.length =
      cachedRun.1.algorithmState.cachedSubmittedActorTaskSizes.length ∧
    handleActorCreationNotification cachedRun.1 5 =
      (submitActorTasks (cachedRun.1.algorithmState.cachedSubmittedActorTasks.zip
          cachedRun.1.algorithmState.cachedSubmittedActorTaskSizes) cachedRun.1).map (fun r =>
        ({ r.1 with
          algorithmState.cachedSubmittedActorTasks :=
            r.1.algorithmState.cachedSubmittedActorTasks.drop
              cachedRun.1.algorithmState.cachedSubmittedActorTasks.length,
          algorithmState.cachedSubmittedActorTaskSizes :=
            r.1.algorithmState.cachedSubmittedActorTaskSizes.drop
              cachedRun.1.algorithmState.cachedSubmittedActorTasks.length }, r.2)) ∧
    ∀ r, handleActorCreationNotification cachedRun.1 5 = some r →
      r.1.actorMapping = cachedRun.1.actorMapping ∧
      r.1.algorithmState.cachedArrays =
        ((cachedRun.1.algorithmState.cachedSubmittedActorTasks.zip
          cachedRun.1.algorithmState.cachedSubmittedActorTaskSizes).filter
            fun p => (cachedRun.1.actorMapping p.1.actorId).isNone).unzip ∧
      ∀ A', handleActorCreationNotification r.1 A' = some (r.1, []) :=
  have h : cachedRun.1.algorithmState.cachedSubmittedActorTasks.length =
      cachedRun.1.algorithmState.cachedSubmittedActorTaskSizes.length := by decide
  ⟨h, actor_creation_replay cachedRun.1 5 h⟩

/-! ## A late actor task -/

section Late

variable {s : LocalSchedulerState n} {spec : TaskSpec n} {size : Int}

theorem dispatchActorTask_eq_none_of_unmapped {A : ActorID} (h : s.actorMapping A = none) :
    dispatchActorTask s A = none := by
  simp [dispatchActorTask, h]

/-- When the actor has no location here yet, `handle_actor_task_scheduled` never returns:
whatever `add_task_to_actor_queue` did, `dispatch_actor_task` then fails its `CHECK` that the
actor is in `actor_mapping`. -/
theorem handleActorTaskScheduled_eq_none_of_unmapped (h : s.actorMapping spec.actorId = none) :
    handleActorTaskScheduled s spec size = none := by
  rw [Option.eq_none_iff_forall_not_mem]
  intro r hr
  obtain ⟨q, d, hq, hd, -⟩ := handleActorTaskScheduled_dispatchesAfter hr
  rw [dispatchActorTask_eq_none_of_unmapped
    ((congrFun hq.frame.config.actorMapping _).trans h)] at hd
  cases hd

end Late

/-- An actor task for actor `5`, of driver `0`, with counter `0`. -/
def lateActorTask : TaskSpec 1 := ⟨0, 5, 0, [], fun _ => 0⟩

/-- **A late actor task ends the run.** On a node with a database and a global scheduler, in
its first state, the global scheduler places a task for actor `5` before the notification that
says where `5` lives. Every check of `handle_actor_task_scheduled` passes and
`add_task_to_actor_queue` queues the task, but `dispatch_actor_task` then fails its
`CHECK(state->actor_mapping.count(actor_id) == 1)`. -/
theorem handleActorTaskScheduled_lateNotification :
    Reachable trackerNode ∧ trackerNode.actorMapping lateActorTask.actorId = none ∧
      (addTaskToActorQueue trackerNode lateActorTask 0 true).isSome ∧
      handleEvent trackerNode (.actorTaskScheduled lateActorTask 0) = none :=
  ⟨.init rfl, rfl, rfl, handleActorTaskScheduled_eq_none_of_unmapped rfl⟩

end LocalScheduler
