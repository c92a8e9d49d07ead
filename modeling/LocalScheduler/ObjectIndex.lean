import LocalScheduler.TrackerInvariant

/-!
# The object index

`remote_objects` indexes the waiting queue by missing object: `handle_object_available`
visits only the cursors registered with the object that arrived, where a plain scheduler
would scan the whole waiting queue for tasks that can now run. This file shows that the
index loses nothing and reorders nothing.

* `RegisteredInOrder` — the cursors registered with a missing object are exactly the waiting
  tasks' cursors, one per by-reference use, in queue order; a local object has none. Every
  operation of the tracker keeps it (`RegisteredInOrder.queueWaiting`, ...).
* `dependents_in_queue_order` — so it holds in every reachable state: the dependency tracker's
  invariant holds with equality, not only up to order.
* `moveDependentTasks_expectedDependents` — the loop of `handle_object_available` over such a
  list of cursors, in closed form: it moves the tasks that can run in queue order, and fails
  exactly when one of them is listed twice.
* `object_arrival_by_scan` — in a reachable state, `handle_object_available` computes what
  the plain scan `scanObjectAvailable` computes, unless a task that can now run passes the
  object twice.
* `object_arrival_fails_iff` — and it fails exactly then, or when the object is already
  local.
-/

namespace LocalScheduler

variable {n : Nat}

/-! ## Registration in queue order -/

/-- The cursors registered with every object, in order: none for a local object, and for a
missing one the cursors of the waiting tasks that pass it by reference, one per use, in queue
order. -/
def RegisteredInOrder (W : List (Nat × TaskQueueEntry n)) (L : ObjectID → Bool)
    (R : List (ObjectID × List Nat)) : Prop :=
  ∀ o, dependentsIn R o = if L o then [] else expectedDependents W o

namespace RegisteredInOrder

variable {W : List (Nat × TaskQueueEntry n)} {L : ObjectID → Bool}
  {R R' : List (ObjectID × List Nat)}

theorem init : RegisteredInOrder ([] : List (Nat × TaskQueueEntry n)) (fun _ => false) [] :=
  fun _ => rfl

/-- `queue_waiting_task`: the new node's cursor is registered once per missing use. -/
theorem queueWaiting (h : RegisteredInOrder W L R) {c : Nat} {e : TaskQueueEntry n}
    (hdeps : ∀ o, dependentsIn R' o = if L o then dependentsIn R o
      else dependentsIn R o ++ List.replicate (e.spec.refIds.count o) c) :
    RegisteredInOrder (W ++ [(c, e)]) L R' := fun o => by
  rw [hdeps, h o]
  cases L o <;> simp

/-- `handle_object_available`: the object's entry goes, it becomes local, and the waiting
tasks that leave the queue can run once it is local. -/
theorem objectAvailable (h : RegisteredInOrder W L R) {O : ObjectID}
    (f : Nat × TaskQueueEntry n → Bool)
    (hf : ∀ p ∈ W, f p = false → ∀ o ∈ p.2.spec.refIds, Function.update L O true o = true) :
    RegisteredInOrder (W.filter f) (Function.update L O true) (R.filter fun p => p.1 ≠ O) :=
  fun o => by
    rw [dependentsIn_filter_ne]
    by_cases ho : o = O
    · rw [if_pos ho, ho, Function.update_same, if_pos rfl]
    · rw [if_neg ho, h o, Function.update_noteq ho]
      cases hLo : L o
      · refine congrArg _ (expectedDependents_filter f fun p hp hfp hop => ?_).symm
        simpa [Function.update_noteq ho, hLo] using hf p hp hfp o hop
      · rfl

/-- `handle_object_removed`: the object is no longer local, the dispatched tasks that use it
come back in new nodes `N`, and every waiting use of it is registered. -/
theorem objectRemoved (h : RegisteredInOrder W L R) {O : ObjectID} (hO : L O = true)
    {N : List (Nat × TaskQueueEntry n)} (hN : ∀ p ∈ N, ∀ o ∈ p.2.spec.refIds, L o = true)
    (hdeps : ∀ o, dependentsIn R' o = if o = O then dependentsIn R O ++ expectedDependents (W ++ N) O
      else dependentsIn R o) :
    RegisteredInOrder (W ++ N) (Function.update L O false) R' := fun o => by
  rw [hdeps]
  by_cases ho : o = O
  · rw [if_pos ho, ho, h O, hO, Function.update_same]
    rfl
  · rw [if_neg ho, h o, Function.update_noteq ho]
    cases hLo : L o
    · have hNo : expectedDependents N o = [] :=
        expectedDependents_eq_nil fun p hp hop => by simpa [hLo] using hN p hp o hop
      simp [hNo]
    · rfl

/-- `handle_driver_removed`: the driver's cursors and waiting tasks go together. -/
theorem driverRemoved (h : RegisteredInOrder W L R) (hW : (W.map Prod.fst).Nodup) (d : WorkerID)
    (hdeps : ∀ o, dependentsIn R' o = (dependentsIn R o).filter
      fun c => c ∈ (W.filter fun p => p.2.spec.driverId ≠ d).map Prod.fst) :
    RegisteredInOrder (W.filter fun p => p.2.spec.driverId ≠ d) L R' := fun o => by
  rw [hdeps, h o, expectedDependents_filter_eq hW]
  split <;> rfl

end RegisteredInOrder

/-! ## The handlers -/

/-- The registration order of a scheduler state. -/
def RegistrationOrdered (s : LocalSchedulerState n) : Prop :=
  RegisteredInOrder s.algorithmState.waitingTaskQueue s.algorithmState.localObjects
    s.algorithmState.remoteObjects

namespace RegistrationOrdered

variable {s : LocalSchedulerState n} {r : LocalSchedulerState n × List (Effect n)}
  {spec : TaskSpec n} {size : Int} {g : Bool}

theorem dispatchTasks (h : RegistrationOrdered s) :
    RegistrationOrdered (LocalScheduler.dispatchTasks s).1 := by
  unfold RegistrationOrdered
  rw [dispatchTasks_waitingTaskQueue, dispatchTasks_localObjects, dispatchTasks_remoteObjects]
  exact h

theorem queueWaitingTask (h : RegistrationOrdered s)
    (hq : LocalScheduler.queueWaitingTask s spec size g = some r) : RegistrationOrdered r.1 := by
  simp only [LocalScheduler.queueWaitingTask, Option.bind_eq_bind, Option.bind_eq_some, Option.pure_def,
    Option.some.injEq] at hq
  obtain ⟨r', hr', rfl⟩ := hq
  obtain ⟨-, rfl⟩ := fetchMissingDependencies_eq hr'
  obtain ⟨hW, -, hL, -⟩ := fetchArgs_fields (fun o => !s.algorithmState.localObjects o)
    (s.nextAddress + 1) spec.args { s with
      nextAddress := s.nextAddress + 2,
      algorithmState.waitingTaskQueue :=
        s.algorithmState.waitingTaskQueue ++ [(s.nextAddress + 1, ⟨s.nextAddress, spec, size⟩)] }
  unfold RegistrationOrdered
  rw [hW, hL]
  refine RegisteredInOrder.queueWaiting (e := ⟨s.nextAddress, spec, size⟩) h fun o => ?_
  rw [dependentsIn_fetchArgs]
  cases s.algorithmState.localObjects o <;> rfl

theorem queueTaskLocally (h : RegistrationOrdered s)
    (hq : LocalScheduler.queueTaskLocally s spec size g = some r) : RegistrationOrdered r.1 := by
  unfold LocalScheduler.queueTaskLocally at hq
  split at hq
  · cases hq
    exact h
  · exact h.queueWaitingTask hq

theorem giveTaskToGlobalScheduler (h : RegistrationOrdered s)
    (hq : LocalScheduler.giveTaskToGlobalScheduler s spec size = some r) : RegistrationOrdered r.1 := by
  unfold LocalScheduler.giveTaskToGlobalScheduler at hq
  split at hq
  · exact h.queueTaskLocally hq
  · cases hq
    exact h

theorem handleTaskSubmitted (h : RegistrationOrdered s)
    (he : LocalScheduler.handleTaskSubmitted s spec size = some r) : RegistrationOrdered r.1 := by
  simp only [LocalScheduler.handleTaskSubmitted, Option.bind_eq_bind, Option.bind_eq_some,
    Option.pure_def, Option.some.injEq] at he
  obtain ⟨q, hq, rfl⟩ := he
  refine RegistrationOrdered.dispatchTasks (s := q.1) ?_
  split at hq
  · cases hq
    exact h
  · exact h.giveTaskToGlobalScheduler hq

theorem handleTaskScheduled (h : RegistrationOrdered s)
    (he : LocalScheduler.handleTaskScheduled s spec size = some r) : RegistrationOrdered r.1 := by
  simp only [LocalScheduler.handleTaskScheduled, check_bind, Option.bind_eq_bind, Option.bind_eq_some,
    Option.pure_def, Option.some.injEq, Option.ite_none_right_eq_some] at he
  obtain ⟨-, -, q, hq, rfl⟩ := he
  exact (h.queueTaskLocally hq).dispatchTasks

theorem handleObjectAvailable (h : RegistrationOrdered s) (ht : TrackerInvariant s) {O : ObjectID}
    (he : LocalScheduler.handleObjectAvailable s O = some r) : RegistrationOrdered r.1 := by
  simp only [LocalScheduler.handleObjectAvailable, check_bind, Option.ite_none_right_eq_some] at he
  obtain ⟨-, he⟩ := he
  split at he
  · cases he
    have := RegisteredInOrder.objectAvailable (O := O) h (fun _ => true) (by simp)
    rwa [List.filter_true] at this
  · simp only [Option.bind_eq_bind, Option.bind_eq_some, Option.pure_def, Option.some.injEq] at he
    obtain ⟨a', ha', rfl⟩ := he
    obtain ⟨M, -, rfl⟩ := moveDependentTasks_eq (by exact ht.cursors_nodup) ha'
    refine RegistrationOrdered.dispatchTasks (RegisteredInOrder.objectAvailable h _ fun p _ hf => ?_)
    simp only [Bool.not_eq_false', Bool.and_eq_true] at hf
    exact List.all_eq_true.1 hf.2

theorem handleObjectRemoved (h : RegistrationOrdered s) (ht : TrackerInvariant s) {O : ObjectID}
    (he : LocalScheduler.handleObjectRemoved s O = some r) : RegistrationOrdered r.1 := by
  simp only [LocalScheduler.handleObjectRemoved, check_bind, Option.pure_def,
    Option.ite_none_right_eq_some, Option.some.injEq] at he
  obtain ⟨hO, rfl⟩ := he
  obtain ⟨N, hNs, -, hreq⟩ := requeueDependentTasks_eq O s.algorithmState.dispatchTaskQueue
    { s with algorithmState.localObjects := Function.update s.algorithmState.localObjects O false }
  rw [hreq]
  obtain ⟨hW, -, hL, -⟩ := refetchRemoved_fields O (s.algorithmState.waitingTaskQueue ++ N)
    { s with
      nextAddress := s.nextAddress + N.length
      algorithmState.waitingTaskQueue := s.algorithmState.waitingTaskQueue ++ N
      algorithmState.dispatchTaskQueue :=
        s.algorithmState.dispatchTaskQueue.filter fun t => !t.spec.isDependentOn O
      algorithmState.localObjects := Function.update s.algorithmState.localObjects O false }
  unfold RegistrationOrdered
  rw [hW, hL]
  refine RegisteredInOrder.objectRemoved h hO (fun p hp => ht.dispatch_local p.2 ?_)
    fun o => dependentsIn_refetchRemoved O o _ _
  have hp : p.2 ∈ N.map Prod.snd := List.mem_map_of_mem _ hp
  rw [hNs] at hp
  exact (List.mem_filter.1 hp).1

theorem handleDriverRemoved (h : RegistrationOrdered s) (ht : TrackerInvariant s) {d : WorkerID}
    (he : LocalScheduler.handleDriverRemoved s d = some r) : RegistrationOrdered r.1 := by
  simp only [LocalScheduler.handleDriverRemoved, Option.bind_eq_bind, Option.bind_eq_some,
    Option.pure_def, Option.some.injEq] at he
  obtain ⟨R', hR', rfl⟩ := he
  obtain ⟨R'', hpurge, -, -, hdeps⟩ := purgeDriverTasks_spec d ht.cursors_nodup _ ht.table
    fun p hp c hc => ht.cursor_mem hp hc
  rw [hpurge, Option.some.injEq] at hR'
  subst hR'
  exact RegisteredInOrder.driverRemoved h ht.cursors_nodup d hdeps

theorem of_sameRegular (h : RegistrationOrdered s) {s' : LocalSchedulerState n}
    (hs : LocalSchedulerState.SameRegular s s') : RegistrationOrdered s' := by
  unfold RegistrationOrdered
  rw [hs.waiting, hs.localObjects, hs.remoteObjects]
  exact h

theorem of_poolsStep (h : RegistrationOrdered s) {s' : LocalSchedulerState n}
    (hs : LocalSchedulerState.PoolsStep s s') : RegistrationOrdered s' := by
  unfold RegistrationOrdered
  rw [hs.waiting, hs.localObjects, hs.remoteObjects]
  exact h

/-- Every step keeps the order, the object handlers given the tracker invariant. -/
theorem handleEvent (h : RegistrationOrdered s) (ht : TrackerInvariant s) {e : Event n}
    (he : LocalScheduler.handleEvent s e = some r) : RegistrationOrdered r.1 := by
  rcases handleEvent_cases he with ⟨-, hreg, -⟩ | hr | ⟨w, R, -, rfl, h'⟩ | ⟨w, rfl, h'⟩ |
    ⟨w, R, rfl, h'⟩ | ⟨w, R, rfl, h'⟩ | ⟨-, ha, -, -, -⟩
  · cases e <;> simp only [Event.regular, Bool.false_eq_true] at hreg
    · exact h.handleTaskSubmitted he
    · exact h.handleTaskScheduled he
    · exact h.handleObjectAvailable ht he
    · exact h.handleObjectRemoved ht he
    · exact h.handleDriverRemoved ht he
    · cases he
      exact h
  · exact h.of_sameRegular hr.frame.regular
  · obtain ⟨s₁, h₁, rfl⟩ := handleWorkerAvailable_poolsStep h'
    exact (of_poolsStep (s := s.creditResources R) h h₁).dispatchTasks
  · exact h.of_poolsStep (handleWorkerRemoved_poolsStep h').1
  · obtain ⟨s₁, h₁, rfl⟩ := handleWorkerBlocked_poolsStep h'
    exact (of_poolsStep (s := s.creditResources R) h h₁).dispatchTasks
  · exact of_poolsStep (s := s.debitResources R) h (handleWorkerUnblocked_poolsStep h').1
  · unfold RegistrationOrdered
    rw [ha]
    exact h

end RegistrationOrdered

theorem reachable_registrationOrdered {s : LocalSchedulerState n} (hs : Reachable s) :
    RegistrationOrdered s := by
  induction hs with
  | init h =>
    unfold RegistrationOrdered
    rw [h]
    exact RegisteredInOrder.init
  | step hs he ih => exact ih.handleEvent (reachable_trackerInvariant hs) he

/-- **The dependents of an object are registered in queue order.** In every state the handlers
reach from `SchedulingAlgorithmState_init`, a local object has no entry in `remote_objects`,
and the dependents of a missing one are the cursors of the waiting tasks that pass it by
reference, one per use, in the order of the waiting queue. -/
theorem dependents_in_queue_order (s : LocalSchedulerState n) (hs : Reachable s) (o : ObjectID) :
    dependentsIn s.algorithmState.remoteObjects o =
      if s.algorithmState.localObjects o then []
      else expectedDependents s.algorithmState.waitingTaskQueue o :=
  reachable_registrationOrdered hs o

theorem dependents_in_queue_order_twoArgs :
    Reachable twoArgRun.1 ∧
    dependentsIn twoArgRun.1.algorithmState.remoteObjects 4 =
      if twoArgRun.1.algorithmState.localObjects 4 then []
      else expectedDependents twoArgRun.1.algorithmState.waitingTaskQueue 4 :=
  have h := runEvents_reachable (.init rfl) runEvents_twoArgs
  ⟨h, dependents_in_queue_order _ h 4⟩

/-! ## The loop over an object's dependents -/

section Loop

variable {a : SchedulingAlgorithmState n} {c : Nat} {e : TaskQueueEntry n}

/-- An erased node is not found again. -/
theorem lookup_filter_fst_ne {β : Type} (l : List (Nat × β)) (c : Nat) :
    (l.filter fun p => p.1 ≠ c).lookup c = none :=
  List.lookup_eq_none_iff.2 fun _ hp =>
    bne_iff_ne.2 fun h => of_decide_eq_true (List.mem_filter.1 hp).2 h.symm

/-- A task that cannot run is passed over at each of its cursors. -/
theorem moveDependentTasks_replicate_skip (he : a.waitingTaskQueue.lookup c = some e)
    (hrun : canRun a e.spec = false) (k : Nat) : moveDependentTasks (List.replicate k c) a = some a :=
  moveDependentTasks_skip fun _ hc => (List.mem_replicate.1 hc).2 ▸ ⟨e, he, hrun⟩

/-- A task that can run moves at its first cursor. -/
theorem moveDependentTasks_cons_move (he : a.waitingTaskQueue.lookup c = some e)
    (hrun : canRun a e.spec = true) (cs : List Nat) :
    moveDependentTasks (c :: cs) a = moveDependentTasks cs { a with
      dispatchTaskQueue := a.dispatchTaskQueue ++ [e],
      waitingTaskQueue := a.waitingTaskQueue.filter fun p => p.1 ≠ c } := by
  simp only [moveDependentTasks, he, hrun, Option.bind_eq_bind, Option.some_bind, if_true]

/-- At its second cursor the node of a task that moved is gone: the loop faults. -/
theorem moveDependentTasks_replicate_twice (he : a.waitingTaskQueue.lookup c = some e)
    (hrun : canRun a e.spec = true) (k : Nat) : moveDependentTasks (List.replicate (k + 2) c) a = none := by
  rw [List.replicate_succ, moveDependentTasks_cons_move he hrun, List.replicate_succ]
  simp only [moveDependentTasks, lookup_filter_fst_ne, Option.bind_eq_bind, Option.none_bind]

/-- **The loop over an object's dependents, in closed form.** Run over the cursors that the
tasks `V` of the waiting queue register with `O`, one per use and in queue order, the loop
moves the tasks of `V` that can run and pass `O`, in queue order, to the back of the dispatch
queue, unless one of them passes `O` twice: its node is erased at the first copy of its cursor
and dereferenced at the second. -/
theorem moveDependentTasks_expectedDependents (O : ObjectID) :
    ∀ (V : List (Nat × TaskQueueEntry n)) (a : SchedulingAlgorithmState n),
      (a.waitingTaskQueue.map Prod.fst).Nodup → (V.map Prod.fst).Nodup →
      (∀ p ∈ V, p ∈ a.waitingTaskQueue) →
      moveDependentTasks (expectedDependents V O) a =
        if ∀ p ∈ V, canRun a p.2.spec = true → p.2.spec.refIds.count O ≤ 1 then
          some { a with
            waitingTaskQueue := a.waitingTaskQueue.filter fun q =>
              q.1 ∉ (V.filter fun p => canRun a p.2.spec && O ∈ p.2.spec.refIds).map Prod.fst,
            dispatchTaskQueue := a.dispatchTaskQueue ++
              (V.filter fun p => canRun a p.2.spec && O ∈ p.2.spec.refIds).map Prod.snd }
        else none
  | [], a, _, _, _ => by simp [moveDependentTasks]
  | (c, e) :: V, a, hW, hV, hsub => by
    rw [List.map_cons, List.nodup_cons] at hV
    have he := lookup_eq_of_mem hW (hsub _ (List.mem_cons_self _ _))
    have hsub' : ∀ p ∈ V, p ∈ a.waitingTaskQueue := fun p hp => hsub p (List.mem_cons_of_mem _ hp)
    rw [expectedDependents_cons, moveDependentTasks_append]
    simp only [List.forall_mem_cons, List.filter_cons]
    cases hrun : canRun a e.spec with
    | false =>
      rw [moveDependentTasks_replicate_skip he hrun, Option.some_bind,
        moveDependentTasks_expectedDependents O V a hW hV.2 hsub']
      simp only [Bool.false_and, Bool.false_eq_true, false_implies, true_and, if_false]
    | true =>
      match hk : e.spec.refIds.count O with
      | 0 =>
        have hO : O ∉ e.spec.refIds := List.count_eq_zero.1 hk
        rw [List.replicate_zero, moveDependentTasks, Option.some_bind,
          moveDependentTasks_expectedDependents O V a hW hV.2 hsub']
        simp only [hO, decide_False, Bool.and_false, Bool.false_eq_true, if_false, zero_le,
          implies_true, true_and]
      | 1 =>
        have hO : O ∈ e.spec.refIds := List.count_pos_iff.1 (by omega)
        have hsub₁ : ∀ p ∈ V, p ∈ a.waitingTaskQueue.filter fun p => p.1 ≠ c := fun p hp =>
          List.mem_filter.2 ⟨hsub' p hp, decide_eq_true fun h => hV.1 (List.mem_map.2 ⟨p, hp, h⟩)⟩
        rw [List.replicate_one, moveDependentTasks_cons_move he hrun, moveDependentTasks, Option.some_bind,
          moveDependentTasks_expectedDependents O V _ (hW.sublist ((List.filter_sublist _).map _)) hV.2 hsub₁]
        simp only [canRun, hO, decide_True, Bool.and_true, if_true, le_refl, implies_true, true_and,
          List.filter_filter, List.map_cons, List.mem_cons, not_or, Bool.decide_and, Bool.and_comm,
          List.append_assoc, List.singleton_append, ne_eq]
      | k + 2 =>
        rw [moveDependentTasks_replicate_twice he hrun k, Option.none_bind,
          if_neg fun h => absurd (h.1 rfl) (by omega)]

end Loop

/-! ## Arrival by index and by scan -/

/-- The plain arrival of an object: it becomes local, its entry of `remote_objects` goes, and a
scan of the whole waiting queue moves every task that can now run, in queue order, to the back
of the dispatch queue. -/
def scanObjectAvailable (a : SchedulingAlgorithmState n) (objectId : ObjectID) :
    SchedulingAlgorithmState n :=
  let a' := { a with
    remoteObjects := a.remoteObjects.filter fun p => p.1 ≠ objectId,
    localObjects := Function.update a.localObjects objectId true }
  { a' with
    waitingTaskQueue := a'.waitingTaskQueue.filter fun p => !canRun a' p.2.spec,
    dispatchTaskQueue := a'.dispatchTaskQueue ++
      (a'.waitingTaskQueue.filter fun p => canRun a' p.2.spec).map Prod.snd }

section Arrival

variable {a : SchedulingAlgorithmState n} {O : ObjectID} {R' : List (ObjectID × List Nat)}
  {spec : TaskSpec n}

/-- Once `O` is local, a task still misses exactly the other objects it missed. -/
theorem canRun_update_eq_false_iff :
    canRun { a with remoteObjects := R', localObjects := Function.update a.localObjects O true } spec =
        false ↔ ∃ o ∈ spec.refIds, o ≠ O ∧ a.localObjects o = false := by
  rw [canRun_eq_false_iff]
  refine exists_congr fun o => and_congr_right fun _ => ?_
  by_cases h : o = O
  · subst h
    simp only [Function.update_same, ne_eq, not_true_eq_false, false_and, Bool.true_eq_false]
  · simp only [Function.update_noteq h, ne_eq, h, not_false_eq_true, true_and]

/-- A task that missed an object and can run once `O` is local passes `O`. -/
theorem canRun_update_and_mem (h : ∃ o ∈ spec.refIds, a.localObjects o = false) :
    (canRun { a with remoteObjects := R', localObjects := Function.update a.localObjects O true } spec &&
      decide (O ∈ spec.refIds)) =
      canRun { a with remoteObjects := R', localObjects := Function.update a.localObjects O true } spec := by
  cases hrun : canRun _ spec
  · rfl
  · obtain ⟨o, ho, hLo⟩ := h
    have hoO : o = O := by_contra fun hoO =>
      Bool.false_ne_true (hrun ▸ canRun_update_eq_false_iff.2 ⟨o, ho, hoO, hLo⟩).symm
    rw [Bool.true_and, decide_eq_true (hoO ▸ ho)]

/-- The loop of `handle_object_available` over the cursors registered in queue order, from a
waiting queue of distinct cursors whose tasks each miss an object, ends where the scan does,
unless a task that can now run passes `O` twice. -/
theorem moveDependentTasks_arrival (hW : (a.waitingTaskQueue.map Prod.fst).Nodup)
    (hmiss : ∀ p ∈ a.waitingTaskQueue, ∃ o ∈ p.2.spec.refIds, a.localObjects o = false) :
    moveDependentTasks (expectedDependents a.waitingTaskQueue O)
        { a with
          remoteObjects := a.remoteObjects.filter fun p => p.1 ≠ O,
          localObjects := Function.update a.localObjects O true } =
      if ∀ p ∈ a.waitingTaskQueue, p.2.spec.refIds.count O ≤ 1 ∨
          ∃ o ∈ p.2.spec.refIds, o ≠ O ∧ a.localObjects o = false then
        some (scanObjectAvailable a O)
      else none := by
  rw [moveDependentTasks_expectedDependents O _ _ ?_ hW ?_]
  · refine if_congr (forall₂_congr fun p _ => ?_) ?_ rfl
    · rw [imp_iff_not_or, Bool.not_eq_true, canRun_update_eq_false_iff, or_comm]
    · rw [List.filter_congr fun p hp => canRun_update_and_mem (hmiss p hp)]
      unfold scanObjectAvailable
      congr 2
      refine List.filter_congr fun q hq => ?_
      simp only [decide_not, fst_mem_map_filter_iff hW _ hq, Bool.decide_eq_true]
  · exact hW
  · exact fun _ => id

theorem expectedDependents_eq_nil_iff {W : List (Nat × TaskQueueEntry n)} :
    expectedDependents W O = [] ↔ ∀ p ∈ W, O ∉ p.2.spec.refIds :=
  ⟨fun h p hp ho => List.not_mem_nil p.1 (h ▸ mem_expectedDependents.2 ⟨p, hp, rfl, ho⟩),
    expectedDependents_eq_nil⟩

/-- `handle_object_available` in a state of the tracker that registers in queue order, for a
missing object: it ends where the scan does, and dispatches when a waiting task used the
object, unless a task that can now run passes the object twice, where it faults. -/
theorem handleObjectAvailable_eq_scan {s : LocalSchedulerState n} (ht : TrackerInvariant s)
    (hr : RegistrationOrdered s) (hO : s.algorithmState.localObjects O = false) :
    handleObjectAvailable s O =
      if ∀ p ∈ s.algorithmState.waitingTaskQueue, p.2.spec.refIds.count O ≤ 1 ∨
          ∃ o ∈ p.2.spec.refIds, o ≠ O ∧ s.algorithmState.localObjects o = false then
        some (if s.algorithmState.waitingTaskQueue.any fun p => O ∈ p.2.spec.refIds then
          dispatchTasks { s with algorithmState := scanObjectAvailable s.algorithmState O }
        else ({ s with algorithmState := scanObjectAvailable s.algorithmState O }, []))
      else none := by
  have hmove := moveDependentTasks_arrival (O := O) ht.cursors_nodup ht.waiting_missing
  have hdeps : (s.algorithmState.remoteObjects.lookup O).getD [] =
      expectedDependents s.algorithmState.waitingTaskQueue O := by
    simpa only [hO, Bool.false_eq_true, if_false] using hr O
  simp only [handleObjectAvailable, check_bind, hO, if_true, hdeps, Option.bind_eq_bind]
  split
  · rename_i hnil
    have hnone := expectedDependents_eq_nil_iff.1 (List.isEmpty_iff.1 hnil)
    have hC : ∀ p ∈ s.algorithmState.waitingTaskQueue, p.2.spec.refIds.count O ≤ 1 ∨
        ∃ o ∈ p.2.spec.refIds, o ≠ O ∧ s.algorithmState.localObjects o = false :=
      fun p hp => Or.inl (List.count_eq_zero.2 (hnone p hp) ▸ Nat.zero_le 1)
    rw [List.isEmpty_iff.1 hnil, if_pos hC] at hmove
    rw [if_pos hC, if_neg fun h => ?_, ← Option.some.inj hmove]
    · rfl
    · obtain ⟨p, hp, hop⟩ := List.any_eq_true.1 h
      exact hnone p hp (of_decide_eq_true hop)
  · rename_i hsome
    rw [hmove]
    split
    · rw [Option.some_bind, if_pos]
      · rfl
      · by_contra hany
        refine hsome (List.isEmpty_iff.2 (expectedDependents_eq_nil_iff.2 fun p hp hop => hany ?_))
        exact List.any_eq_true.2 ⟨p, hp, decide_eq_true hop⟩
    · rfl

end Arrival

/-- **Arrival through the index is the plain scan.** In every reachable state, when a missing
object arrives and no waiting task that can run once it is local passes it twice,
`handle_object_available` ends where a scan of the whole waiting queue ends: the object is
local and out of `remote_objects`, every waiting task that can now run has moved, in queue
order, to the back of the dispatch queue, and the others wait in their order. It then
dispatches, if a waiting task used the object. -/
theorem object_arrival_by_scan (s : LocalSchedulerState n) (hs : Reachable s) (O : ObjectID)
    (hO : s.algorithmState.localObjects O = false)
    (hdup : ∀ p ∈ s.algorithmState.waitingTaskQueue, p.2.spec.refIds.count O ≤ 1 ∨
      ∃ o ∈ p.2.spec.refIds, o ≠ O ∧ s.algorithmState.localObjects o = false) :
    handleObjectAvailable s O = some
      (if s.algorithmState.waitingTaskQueue.any fun p => O ∈ p.2.spec.refIds then
        dispatchTasks { s with algorithmState := scanObjectAvailable s.algorithmState O }
      else ({ s with algorithmState := scanObjectAvailable s.algorithmState O }, [])) := by
  rw [handleObjectAvailable_eq_scan (reachable_trackerInvariant hs) (reachable_registrationOrdered hs) hO,
    if_pos hdup]

theorem object_arrival_by_scan_twoArgs :
    Reachable twoArgRun.1 ∧ twoArgRun.1.algorithmState.localObjects 4 = false ∧
    (∀ p ∈ twoArgRun.1.algorithmState.waitingTaskQueue, p.2.spec.refIds.count 4 ≤ 1 ∨
      ∃ o ∈ p.2.spec.refIds, o ≠ 4 ∧ twoArgRun.1.algorithmState.localObjects o = false) ∧
    handleObjectAvailable twoArgRun.1 4 = some
      (if twoArgRun.1.algorithmState.waitingTaskQueue.any fun p => 4 ∈ p.2.spec.refIds then
        dispatchTasks { twoArgRun.1 with
          algorithmState := scanObjectAvailable twoArgRun.1.algorithmState 4 }
      else ({ twoArgRun.1 with
          algorithmState := scanObjectAvailable twoArgRun.1.algorithmState 4 }, [])) :=
  have h := runEvents_reachable (.init rfl) runEvents_twoArgs
  have hO : twoArgRun.1.algorithmState.localObjects 4 = false := by decide
  have hdup : ∀ p ∈ twoArgRun.1.algorithmState.waitingTaskQueue, p.2.spec.refIds.count 4 ≤ 1 ∨
      ∃ o ∈ p.2.spec.refIds, o ≠ 4 ∧ twoArgRun.1.algorithmState.localObjects o = false := by decide
  ⟨h, hO, hdup, object_arrival_by_scan _ h 4 hO hdup⟩

/-- **When the arrival of an object faults.** In every reachable state,
`handle_object_available` fails exactly when the object is local already (the `CHECK`), or
when a waiting task passes it at least twice and every other object the task passes by
reference is local: the loop moves the task at the first copy of its cursor and dereferences
the erased node at the second. -/
theorem object_arrival_fails_iff (s : LocalSchedulerState n) (hs : Reachable s) (O : ObjectID) :
    handleObjectAvailable s O = none ↔ s.algorithmState.localObjects O = true ∨
      ∃ p ∈ s.algorithmState.waitingTaskQueue, 2 ≤ p.2.spec.refIds.count O ∧
        ∀ o ∈ p.2.spec.refIds, o ≠ O → s.algorithmState.localObjects o = true := by
  cases hO : s.algorithmState.localObjects O
  · rw [handleObjectAvailable_eq_scan (reachable_trackerInvariant hs) (reachable_registrationOrdered hs) hO,
      Bool.false_eq_true, false_or]
    split
    · rename_i hC
      simp only [reduceCtorEq, false_iff, not_exists, not_and]
      intro p hp h2 hloc
      rcases hC p hp with h | ⟨o, ho, hoO, hLo⟩
      · omega
      · rw [hloc o ho hoO] at hLo
        cases hLo
    · rename_i hC
      simp only [not_forall, not_or, not_exists, not_and, not_le, Bool.not_eq_false] at hC
      obtain ⟨p, hp, h2, hloc⟩ := hC
      exact iff_of_true rfl ⟨p, hp, h2, hloc⟩
  · simp only [handleObjectAvailable, check_bind, hO, Bool.true_eq_false, if_false, true_or, iff_self]

theorem object_arrival_fails_iff_twoArgs :
    Reachable twoArgRun.1 ∧
    (handleObjectAvailable twoArgRun.1 4 = none ↔ twoArgRun.1.algorithmState.localObjects 4 = true ∨
      ∃ p ∈ twoArgRun.1.algorithmState.waitingTaskQueue, 2 ≤ p.2.spec.refIds.count 4 ∧
        ∀ o ∈ p.2.spec.refIds, o ≠ 4 → twoArgRun.1.algorithmState.localObjects o = true) :=
  have h := runEvents_reachable (.init rfl) runEvents_twoArgs
  ⟨h, object_arrival_fails_iff _ h 4⟩

/-! ## Two arrivals in either order -/

/-- Making one more object local makes no task unable to run. -/
theorem all_update_true {l : List ObjectID} {L : ObjectID → Bool} (O : ObjectID)
    (h : l.all L = true) : l.all (Function.update L O true) = true :=
  List.all_eq_true.2 fun o ho => by
    by_cases hoO : o = O
    · rw [hoO, Function.update_same]
    · rw [Function.update_noteq hoO]
      exact List.all_eq_true.1 h o ho

theorem not_all_update_and (l : List ObjectID) (L : ObjectID → Bool) (O : ObjectID) :
    (!l.all (Function.update L O true) && !l.all L) = !l.all (Function.update L O true) := by
  cases h : l.all L
  · rw [Bool.not_false, Bool.and_true]
  · rw [all_update_true O h]
    rfl

/-- In a reachable state, an arrival that returns leaves the tracker's tables as the scan
does: the object was missing, it is now local and out of `remote_objects`, and the tasks that
can run are out of the waiting queue. -/
theorem handleObjectAvailable_tables {s : LocalSchedulerState n} (hs : Reachable s) {O : ObjectID}
    {r : LocalSchedulerState n × List (Effect n)} (h : handleObjectAvailable s O = some r) :
    s.algorithmState.localObjects O = false ∧
      r.1.algorithmState.waitingTaskQueue = s.algorithmState.waitingTaskQueue.filter
        (fun p => !p.2.spec.refIds.all (Function.update s.algorithmState.localObjects O true)) ∧
      r.1.algorithmState.localObjects = Function.update s.algorithmState.localObjects O true ∧
      r.1.algorithmState.remoteObjects = s.algorithmState.remoteObjects.filter fun p => p.1 ≠ O := by
  cases hO : s.algorithmState.localObjects O
  · rw [handleObjectAvailable_eq_scan (reachable_trackerInvariant hs) (reachable_registrationOrdered hs)
      hO] at h
    split at h
    · obtain rfl := Option.some.inj h
      refine ⟨rfl, ?_⟩
      split
      · rw [dispatchTasks_waitingTaskQueue, dispatchTasks_localObjects, dispatchTasks_remoteObjects]
        exact ⟨rfl, rfl, rfl⟩
      · exact ⟨rfl, rfl, rfl⟩
    · cases h
  · simp only [handleObjectAvailable, check_bind, hO, Bool.true_eq_false, if_false, reduceCtorEq] at h

/-- **Object arrivals commute.** From every reachable state, when two objects arrive one after
the other, in either order, and both handlers return both times, the waiting queue,
`local_objects` and `remote_objects` end the same: which tasks wait and which objects are
fetched does not depend on the order in which the object store reports them. -/
theorem object_arrivals_commute (s : LocalSchedulerState n) (hs : Reachable s) (O₁ O₂ : ObjectID)
    (r₁ r₂ r₁' r₂' : LocalSchedulerState n × List (Effect n))
    (h₁ : handleObjectAvailable s O₁ = some r₁) (h₂ : handleObjectAvailable r₁.1 O₂ = some r₂)
    (h₁' : handleObjectAvailable s O₂ = some r₁') (h₂' : handleObjectAvailable r₁'.1 O₁ = some r₂') :
    r₂.1.algorithmState.waitingTaskQueue = r₂'.1.algorithmState.waitingTaskQueue ∧
      r₂.1.algorithmState.localObjects = r₂'.1.algorithmState.localObjects ∧
      r₂.1.algorithmState.remoteObjects = r₂'.1.algorithmState.remoteObjects := by
  obtain ⟨-, hW₁, hL₁, hR₁⟩ := handleObjectAvailable_tables hs h₁
  obtain ⟨hO₂, hW₂, hL₂, hR₂⟩ := handleObjectAvailable_tables (.step (e := .objectAvailable O₁) hs h₁) h₂
  obtain ⟨-, hW₁', hL₁', hR₁'⟩ := handleObjectAvailable_tables hs h₁'
  obtain ⟨-, hW₂', hL₂', hR₂'⟩ := handleObjectAvailable_tables (.step (e := .objectAvailable O₂) hs h₁') h₂'
  have hne : O₁ ≠ O₂ := by
    rintro rfl
    rw [hL₁, Function.update_same] at hO₂
    cases hO₂
  have hL := Function.update_comm hne true true s.algorithmState.localObjects
  refine ⟨?_, by rw [hL₂, hL₁, hL₂', hL₁', hL], ?_⟩
  · rw [hW₂, hW₁, hL₁, hW₂', hW₁', hL₁', List.filter_filter, List.filter_filter]
    refine List.filter_congr fun p _ => ?_
    simp only [not_all_update_and]
    rw [hL]
  · rw [hR₂, hR₁, hR₂', hR₁', List.filter_filter, List.filter_filter]
    exact List.filter_congr fun p _ => Bool.and_comm _ _

/-- The node after the global scheduler placed the two-argument task, with both objects
missing. -/
def twoArgWaiting : LocalSchedulerState 1 × List (Observation 1) :=
  (runEvents trackerNode [.taskScheduled twoArgTask 0 rfl]).getD (trackerNode, [])

theorem runEvents_twoArgWaiting :
    runEvents trackerNode [.taskScheduled twoArgTask 0 rfl] = some twoArgWaiting :=
  rfl

theorem object_arrivals_commute_twoArgs :
    Reachable twoArgWaiting.1 ∧
    ∃ r₁ r₂ r₁' r₂', handleObjectAvailable twoArgWaiting.1 3 = some r₁ ∧
      handleObjectAvailable r₁.1 4 = some r₂ ∧ handleObjectAvailable twoArgWaiting.1 4 = some r₁' ∧
      handleObjectAvailable r₁'.1 3 = some r₂' ∧
      (r₂.1.algorithmState.waitingTaskQueue = r₂'.1.algorithmState.waitingTaskQueue ∧
        r₂.1.algorithmState.localObjects = r₂'.1.algorithmState.localObjects ∧
        r₂.1.algorithmState.remoteObjects = r₂'.1.algorithmState.remoteObjects) :=
  have h : Reachable twoArgWaiting.1 := runEvents_reachable (.init rfl) runEvents_twoArgWaiting
  ⟨h, _, _, _, _, rfl, rfl, rfl, rfl, object_arrivals_commute _ h 3 4 _ _ _ _ rfl rfl rfl rfl⟩

end LocalScheduler
