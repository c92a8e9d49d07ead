import LocalScheduler.TrackerLoops
import LocalScheduler.Events

/-!
# The dependency tracker's representation invariant

What ties the waiting queue, the dispatch queue, `local_objects` and `remote_objects`
together in every reachable state. `Tracks` states it over those four parts and the allocator,
and each operation of the tracker keeps it (`Tracks.queueWaiting`, `Tracks.objectAvailable`,
`Tracks.objectRemoved`, `Tracks.driverRemoved`, ...); `TrackerInvariant` is `Tracks` of a
scheduler state, and one lemma per handler connects the handler to the operation it performs.

* `TrackerInvariant.handleEvent` — every step keeps the invariant.
* `reachable_trackerInvariant` — every reachable state satisfies it.
* `dependency_tracker_invariant` — its consequences, as the source's comments state them.
* `handleObjectAvailable_duplicateRef` — a task that passes a missing object by reference
  twice has its cursor registered twice, and the object's arrival then dereferences the node
  it has just erased.
-/

namespace LocalScheduler

variable {n : Nat}

/-! ## The invariant and the tracker's operations -/

/-- The dependency tracker's representation invariant, over the parts of the state it reads:
the waiting queue `W`, the dispatch queue `D`, `local_objects` `L`, `remote_objects` `R` and
the allocator `next`. -/
structure Tracks (W : List (Nat × TaskQueueEntry n)) (D : List (TaskQueueEntry n))
    (L : ObjectID → Bool) (R : List (ObjectID × List Nat)) (next : Nat) : Prop where
  table : TableWF R
  /-- A local object has no dependents; a missing one has one cursor per use by a waiting
  task. -/
  dependents : ∀ o, List.Perm (dependentsIn R o) (if L o then [] else expectedDependents W o)
  dispatch_local : ∀ t ∈ D, ∀ o ∈ t.spec.refIds, L o = true
  waiting_missing : ∀ p ∈ W, ∃ o ∈ p.2.spec.refIds, L o = false
  cursors_nodup : (W.map Prod.fst).Nodup
  cursors_lt : ∀ p ∈ W, p.1 < next

namespace Tracks

variable {W : List (Nat × TaskQueueEntry n)} {D : List (TaskQueueEntry n)} {L : ObjectID → Bool}
  {R : List (ObjectID × List Nat)} {k : Nat}

theorem init : Tracks ([] : List (Nat × TaskQueueEntry n)) [] (fun _ => false) [] k :=
  ⟨TableWF.nil, fun _ => by simp [dependentsIn], fun _ h => absurd h (List.not_mem_nil _),
    fun _ h => absurd h (List.not_mem_nil _), List.nodup_nil, fun _ h => absurd h (List.not_mem_nil _)⟩

/-- A local object has no dependents. -/
theorem dependentsIn_eq_nil (h : Tracks W D L R k) {o : ObjectID} (ho : L o = true) :
    dependentsIn R o = [] :=
  List.Perm.eq_nil (by simpa [ho] using h.dependents o)

/-- Every registered cursor names a node of the waiting queue. -/
theorem cursor_mem (h : Tracks W D L R k) {p : ObjectID × List Nat} (hp : p ∈ R) {c : Nat}
    (hc : c ∈ p.2) : c ∈ W.map Prod.fst := by
  have hperm := h.dependents p.1
  rw [h.table.dependentsIn_eq hp] at hperm
  split at hperm
  · exact absurd (hperm.subset hc) (List.not_mem_nil _)
  · obtain ⟨q, hq, rfl, -⟩ := mem_expectedDependents.1 (hperm.subset hc)
    exact List.mem_map_of_mem _ hq

/-- The dispatch queue may lose tasks and the allocator move on. -/
theorem mono (h : Tracks W D L R k) {D' : List (TaskQueueEntry n)} (hD : ∀ t ∈ D', t ∈ D)
    {k' : Nat} (hk : k ≤ k') : Tracks W D' L R k' :=
  ⟨h.table, h.dependents, fun t ht => h.dispatch_local t (hD t ht), h.waiting_missing,
    h.cursors_nodup, fun p hp => (h.cursors_lt p hp).trans_le hk⟩

/-- `queue_dispatch_task` of a task whose arguments are all local. -/
theorem queueDispatch (h : Tracks W D L R k) {t : TaskQueueEntry n}
    (ht : ∀ o ∈ t.spec.refIds, L o = true) {k' : Nat} (hk : k ≤ k') : Tracks W (D ++ [t]) L R k' :=
  ⟨h.table, h.dependents, fun t' ht' => (List.mem_append.1 ht').elim (h.dispatch_local t')
    fun h' => List.mem_singleton.1 h' ▸ ht, h.waiting_missing, h.cursors_nodup,
    fun p hp => (h.cursors_lt p hp).trans_le hk⟩

/-- `queue_waiting_task`: a new node with a fresh cursor, registered once per missing use. -/
theorem queueWaiting (h : Tracks W D L R k) {c : Nat} {e : TaskQueueEntry n}
    (hmiss : ∃ o ∈ e.spec.refIds, L o = false) {R' : List (ObjectID × List Nat)} (hR' : TableWF R')
    (hdeps : ∀ o, dependentsIn R' o = if L o then dependentsIn R o
      else dependentsIn R o ++ List.replicate (e.spec.refIds.count o) c)
    {k' : Nat} (hc : k ≤ c) (hk : c < k') : Tracks (W ++ [(c, e)]) D L R' k' where
  table := hR'
  dependents o := by
    have := h.dependents o
    rw [hdeps]
    split
    · simpa [*] using this
    · simpa [*] using this.append_right _
  dispatch_local := h.dispatch_local
  waiting_missing p hp := (List.mem_append.1 hp).elim (h.waiting_missing p)
    fun h' => List.mem_singleton.1 h' ▸ hmiss
  cursors_nodup := by
    rw [List.map_append]
    exact List.nodup_append_comm.2 (List.nodup_cons.2 ⟨fun hm => by
      obtain ⟨p, hp, hpc⟩ := List.mem_map.1 hm
      have := h.cursors_lt p hp
      omega, h.cursors_nodup⟩)
  cursors_lt p hp := (List.mem_append.1 hp).elim (fun hp => by have := h.cursors_lt p hp; omega)
    fun h' => by rw [List.mem_singleton.1 h']; exact hk

/-- `handle_object_available` of a missing object `O`: its entry goes, it becomes local, and
the waiting tasks it lists that can run now move to the dispatch queue. -/
theorem objectAvailable (h : Tracks W D L R k) {O : ObjectID} (hO : L O = false)
    {M : List (TaskQueueEntry n)}
    (hM : ∀ e ∈ M, ∀ o ∈ e.spec.refIds, Function.update L O true o = true) :
    Tracks (W.filter fun p =>
        !(p.1 ∈ dependentsIn R O && p.2.spec.refIds.all (Function.update L O true)))
      (D ++ M) (Function.update L O true) (R.filter fun p => p.1 ≠ O) k where
  table := h.table.filter _
  dependents o := by
    rw [dependentsIn_filter_ne]
    by_cases ho : o = O
    · subst ho
      simp
    · have hperm := h.dependents o
      cases hLo : L o
      · rw [expectedDependents_filter]
        · simpa [ho, hLo] using hperm
        · intro p _ hp hop
          simp only [Bool.not_eq_false', Bool.and_eq_true, decide_eq_true_eq, List.all_eq_true] at hp
          simpa [ho, hLo] using hp.2 o hop
      · simpa [ho, hLo] using hperm
  dispatch_local t ht o hot := by
    rcases List.mem_append.1 ht with ht | ht
    · by_cases ho : o = O
      · rw [ho, Function.update_same]
      · simpa [ho] using h.dispatch_local t ht o hot
    · exact hM t ht o hot
  waiting_missing p hp := by
    obtain ⟨hpW, hkeep⟩ := List.mem_filter.1 hp
    obtain ⟨o, hop, hLo⟩ := h.waiting_missing p hpW
    by_cases ho : o = O
    · subst ho
      have hc : p.1 ∈ dependentsIn R o :=
        (h.dependents o).symm.subset (by simpa [hLo] using mem_expectedDependents.2 ⟨p, hpW, rfl, hop⟩)
      simp only [hc, decide_True, Bool.true_and, Bool.not_eq_true', List.all_eq_false] at hkeep
      obtain ⟨o', ho', hL'⟩ := hkeep
      exact ⟨o', ho', by simpa using hL'⟩
    · exact ⟨o, hop, by simpa [ho] using hLo⟩
  cursors_nodup := h.cursors_nodup.sublist ((List.filter_sublist _).map _)
  cursors_lt p hp := h.cursors_lt p (List.mem_of_mem_filter hp)

/-- `handle_object_removed` of a local object `O`: it stops being local, the dispatched tasks
that use it move to new nodes `N` at the back of the waiting queue, and every waiting use of
it is registered. -/
theorem objectRemoved (h : Tracks W D L R k) {O : ObjectID} (hO : L O = true)
    {N : List (Nat × TaskQueueEntry n)}
    (hNs : N.map Prod.snd = D.filter fun t => t.spec.isDependentOn O)
    (hNf : N.map Prod.fst = List.range' k N.length) {R' : List (ObjectID × List Nat)}
    (hR' : TableWF R')
    (hdeps : ∀ o, dependentsIn R' o = if o = O then dependentsIn R O ++ expectedDependents (W ++ N) O
      else dependentsIn R o) :
    Tracks (W ++ N) (D.filter fun t => !t.spec.isDependentOn O) (Function.update L O false) R'
      (k + N.length) where
  table := hR'
  dependents o := by
    have hD : ∀ p ∈ N, p.2 ∈ D := fun p hp =>
      List.mem_of_mem_filter (hNs ▸ List.mem_map_of_mem Prod.snd hp : p.2 ∈ D.filter _)
    rw [hdeps]
    by_cases ho : o = O
    · subst ho
      simp [h.dependentsIn_eq_nil hO]
    · have hperm := h.dependents o
      simp only [ho, if_false, Function.update_noteq ho]
      cases hLo : L o
      · have hN : expectedDependents N o = [] := expectedDependents_eq_nil fun p hp hop => by
          simpa [hLo] using h.dispatch_local p.2 (hD p hp) o hop
        simpa [hLo, hN] using hperm
      · simpa [hLo] using hperm
  dispatch_local t ht o hot := by
    obtain ⟨htD, hdep⟩ := List.mem_filter.1 ht
    have ho : o ≠ O := by
      rintro rfl
      simp [TaskSpec.isDependentOn, hot] at hdep
    simpa [ho] using h.dispatch_local t htD o hot
  waiting_missing p hp := by
    rcases List.mem_append.1 hp with hp | hp
    · obtain ⟨o, hop, hLo⟩ := h.waiting_missing p hp
      have ho : o ≠ O := by
        rintro rfl
        simp [hO] at hLo
      exact ⟨o, hop, by simpa [ho] using hLo⟩
    · have : p.2 ∈ D.filter _ := hNs ▸ List.mem_map_of_mem Prod.snd hp
      exact ⟨O, by simpa [TaskSpec.isDependentOn] using (List.mem_filter.1 this).2, by simp⟩
  cursors_nodup := by
    have hlt := h.cursors_lt
    rw [List.map_append, hNf, List.nodup_append]
    refine ⟨h.cursors_nodup, List.nodup_range' _ _, fun c hc hc' => ?_⟩
    obtain ⟨p, hp, rfl⟩ := List.mem_map.1 hc
    have := hlt p hp
    have := List.mem_range'_1.1 hc'
    omega
  cursors_lt p hp := by
    rcases List.mem_append.1 hp with hp | hp
    · have := h.cursors_lt p hp
      omega
    · have := List.mem_range'_1.1 (hNf ▸ List.mem_map_of_mem Prod.fst hp)
      omega

/-- `handle_driver_removed`: the driver's cursors, waiting tasks and dispatched tasks go. -/
theorem driverRemoved (h : Tracks W D L R k) (d : WorkerID) {R' : List (ObjectID × List Nat)}
    (hR' : TableWF R')
    (hdeps : ∀ o, dependentsIn R' o = (dependentsIn R o).filter
      fun c => c ∈ (W.filter fun p => p.2.spec.driverId ≠ d).map Prod.fst) :
    Tracks (W.filter fun p => p.2.spec.driverId ≠ d) (D.filter fun t => t.spec.driverId ≠ d) L R' k where
  table := hR'
  dependents o := by
    rw [hdeps, expectedDependents_filter_eq h.cursors_nodup]
    have := (h.dependents o).filter fun c => c ∈ (W.filter fun p => p.2.spec.driverId ≠ d).map Prod.fst
    cases hLo : L o <;>
      simpa only [hLo, if_true, if_false, Bool.false_eq_true, List.filter_nil] using this
  dispatch_local t ht := h.dispatch_local t (List.mem_of_mem_filter ht)
  waiting_missing p hp := h.waiting_missing p (List.mem_of_mem_filter hp)
  cursors_nodup := h.cursors_nodup.sublist ((List.filter_sublist _).map _)
  cursors_lt p hp := h.cursors_lt p (List.mem_of_mem_filter hp)

end Tracks

/-! ## The handlers -/

/-- The tracker invariant of a scheduler state. -/
def TrackerInvariant (s : LocalSchedulerState n) : Prop :=
  Tracks s.algorithmState.waitingTaskQueue s.algorithmState.dispatchTaskQueue
    s.algorithmState.localObjects s.algorithmState.remoteObjects s.nextAddress

namespace TrackerInvariant

variable {s : LocalSchedulerState n} {r : LocalSchedulerState n × List (Effect n)}
  {spec : TaskSpec n} {size : Int} {g : Bool}

theorem dispatchTasks (h : TrackerInvariant s) :
    TrackerInvariant (LocalScheduler.dispatchTasks s).1 := by
  unfold TrackerInvariant
  rw [dispatchTasks_waitingTaskQueue, dispatchTasks_localObjects, dispatchTasks_remoteObjects,
    dispatchTasks_nextAddress]
  exact h.mono (fun _ => mem_of_mem_dispatchTasks) le_rfl

theorem queueDispatchTask (h : TrackerInvariant s) (hrun : canRun s.algorithmState spec = true) :
    TrackerInvariant (LocalScheduler.queueDispatchTask s spec size g).1 :=
  Tracks.queueDispatch (t := ⟨s.nextAddress, spec, size⟩) h (List.all_eq_true.1 hrun) (Nat.le_succ _)

theorem queueWaitingTask (h : TrackerInvariant s)
    (hq : LocalScheduler.queueWaitingTask s spec size g = some r) : TrackerInvariant r.1 := by
  simp only [LocalScheduler.queueWaitingTask, Option.bind_eq_bind, Option.bind_eq_some, Option.pure_def,
    Option.some.injEq] at hq
  obtain ⟨r', hr', rfl⟩ := hq
  obtain ⟨hrun, rfl⟩ := fetchMissingDependencies_eq hr'
  obtain ⟨hW, hD, hL, hk⟩ := fetchArgs_fields (fun o => !s.algorithmState.localObjects o)
    (s.nextAddress + 1) spec.args { s with
      nextAddress := s.nextAddress + 2,
      algorithmState.waitingTaskQueue :=
        s.algorithmState.waitingTaskQueue ++ [(s.nextAddress + 1, ⟨s.nextAddress, spec, size⟩)] }
  unfold TrackerInvariant
  rw [hW, hD, hL, hk]
  refine Tracks.queueWaiting (e := ⟨s.nextAddress, spec, size⟩) h (canRun_eq_false_iff.1 hrun) ?_
    (fun o => ?_) (Nat.le_succ _) (Nat.lt_succ_self _)
  · exact TableWF.fetchArgs _ _ _ h.table
  · rw [dependentsIn_fetchArgs]
    cases s.algorithmState.localObjects o <;> rfl

theorem queueTaskLocally (h : TrackerInvariant s)
    (hq : LocalScheduler.queueTaskLocally s spec size g = some r) : TrackerInvariant r.1 := by
  unfold LocalScheduler.queueTaskLocally at hq
  split at hq
  · cases hq
    exact h.queueDispatchTask ‹_›
  · exact h.queueWaitingTask hq

theorem giveTaskToGlobalScheduler (h : TrackerInvariant s)
    (hq : LocalScheduler.giveTaskToGlobalScheduler s spec size = some r) : TrackerInvariant r.1 := by
  unfold LocalScheduler.giveTaskToGlobalScheduler at hq
  split at hq
  · exact h.queueTaskLocally hq
  · cases hq
    exact h

theorem handleTaskSubmitted (h : TrackerInvariant s)
    (he : LocalScheduler.handleTaskSubmitted s spec size = some r) : TrackerInvariant r.1 := by
  simp only [LocalScheduler.handleTaskSubmitted, Option.bind_eq_bind, Option.bind_eq_some,
    Option.pure_def, Option.some.injEq] at he
  obtain ⟨q, hq, rfl⟩ := he
  refine TrackerInvariant.dispatchTasks (s := q.1) ?_
  split at hq
  · rename_i hcond
    cases hq
    simp only [Bool.and_eq_true] at hcond
    exact h.queueDispatchTask hcond.2
  · exact h.giveTaskToGlobalScheduler hq

theorem handleTaskScheduled (h : TrackerInvariant s)
    (he : LocalScheduler.handleTaskScheduled s spec size = some r) : TrackerInvariant r.1 := by
  simp only [LocalScheduler.handleTaskScheduled, check_bind, Option.bind_eq_bind, Option.bind_eq_some,
    Option.pure_def, Option.some.injEq, Option.ite_none_right_eq_some] at he
  obtain ⟨-, -, q, hq, rfl⟩ := he
  exact (h.queueTaskLocally hq).dispatchTasks

theorem handleObjectAvailable (h : TrackerInvariant s) {O : ObjectID}
    (he : LocalScheduler.handleObjectAvailable s O = some r) : TrackerInvariant r.1 := by
  simp only [LocalScheduler.handleObjectAvailable, check_bind, Option.ite_none_right_eq_some] at he
  obtain ⟨hO, he⟩ := he
  split at he
  · rename_i hnil
    cases he
    have hdeps : dependentsIn s.algorithmState.remoteObjects O = [] := List.isEmpty_iff.1 hnil
    have := Tracks.objectAvailable (M := []) h hO (by simp)
    rw [hdeps, List.append_nil] at this
    simpa using this
  · simp only [Option.bind_eq_bind, Option.bind_eq_some, Option.pure_def, Option.some.injEq] at he
    obtain ⟨a', ha', rfl⟩ := he
    obtain ⟨M, hM, rfl⟩ := moveDependentTasks_eq (by exact h.cursors_nodup) ha'
    refine TrackerInvariant.dispatchTasks ?_
    refine Tracks.objectAvailable h hO fun e he o ho => ?_
    obtain ⟨p, hp, rfl⟩ := List.mem_map.1 (hM.subset he)
    exact List.all_eq_true.1 (Bool.and_eq_true_iff.1 (List.mem_filter.1 hp).2).2 o ho

theorem handleObjectRemoved (h : TrackerInvariant s) {O : ObjectID}
    (he : LocalScheduler.handleObjectRemoved s O = some r) : TrackerInvariant r.1 := by
  simp only [LocalScheduler.handleObjectRemoved, check_bind, Option.pure_def,
    Option.ite_none_right_eq_some, Option.some.injEq] at he
  obtain ⟨hO, rfl⟩ := he
  obtain ⟨N, hNs, hNf, hreq⟩ := requeueDependentTasks_eq O s.algorithmState.dispatchTaskQueue
    { s with algorithmState.localObjects := Function.update s.algorithmState.localObjects O false }
  rw [hreq]
  obtain ⟨hW, hD, hL, hk⟩ := refetchRemoved_fields O (s.algorithmState.waitingTaskQueue ++ N)
    { s with
      nextAddress := s.nextAddress + N.length
      algorithmState.waitingTaskQueue := s.algorithmState.waitingTaskQueue ++ N
      algorithmState.dispatchTaskQueue :=
        s.algorithmState.dispatchTaskQueue.filter fun t => !t.spec.isDependentOn O
      algorithmState.localObjects := Function.update s.algorithmState.localObjects O false }
  unfold TrackerInvariant
  rw [hW, hD, hL, hk]
  refine Tracks.objectRemoved h hO hNs hNf ?_ fun o => ?_
  · exact TableWF.refetchRemoved _ _ h.table
  · exact dependentsIn_refetchRemoved O o _ _

theorem handleDriverRemoved (h : TrackerInvariant s) {d : WorkerID}
    (he : LocalScheduler.handleDriverRemoved s d = some r) : TrackerInvariant r.1 := by
  simp only [LocalScheduler.handleDriverRemoved, Option.bind_eq_bind, Option.bind_eq_some,
    Option.pure_def, Option.some.injEq] at he
  obtain ⟨R', hR', rfl⟩ := he
  obtain ⟨R'', hpurge, hwf, -, hdeps⟩ := purgeDriverTasks_spec d h.cursors_nodup _ h.table
    fun p hp c hc => h.cursor_mem hp hc
  rw [hpurge, Option.some.injEq] at hR'
  subst hR'
  exact h.driverRemoved d hwf hdeps

theorem of_sameRegular (h : TrackerInvariant s) {s' : LocalSchedulerState n}
    (hs : LocalSchedulerState.SameRegular s s') (hk : s.nextAddress ≤ s'.nextAddress) :
    TrackerInvariant s' := by
  unfold TrackerInvariant
  rw [hs.waiting, hs.dispatch, hs.localObjects, hs.remoteObjects]
  exact h.mono (fun _ => id) hk

theorem of_poolsStep (h : TrackerInvariant s) {s' : LocalSchedulerState n}
    (hs : LocalSchedulerState.PoolsStep s s') : TrackerInvariant s' := by
  unfold TrackerInvariant
  rw [hs.waiting, hs.dispatch, hs.localObjects, hs.remoteObjects, hs.nextAddress]
  exact h

/-- Every step keeps the invariant: the regular path's handlers by their own lemmas, the
others because they leave the waiting queue and the object tables alone and at most
dispatch. -/
theorem handleEvent (h : TrackerInvariant s) {e : Event n}
    (he : LocalScheduler.handleEvent s e = some r) : TrackerInvariant r.1 := by
  rcases handleEvent_cases he with ⟨-, hreg, -⟩ | hr | ⟨w, R, -, rfl, h'⟩ | ⟨w, rfl, h'⟩ |
    ⟨w, R, rfl, h'⟩ | ⟨w, R, rfl, h'⟩ | ⟨-, ha, -, -, hk⟩
  · cases e <;> simp only [Event.regular, Bool.false_eq_true] at hreg
    · exact h.handleTaskSubmitted he
    · exact h.handleTaskScheduled he
    · exact h.handleObjectAvailable he
    · exact h.handleObjectRemoved he
    · exact h.handleDriverRemoved he
    · cases he
      exact h
  · exact h.of_sameRegular hr.frame.regular hr.frame.nextAddress
  · obtain ⟨s₁, h₁, rfl⟩ := handleWorkerAvailable_poolsStep h'
    exact (of_poolsStep (s := s.creditResources R) h h₁).dispatchTasks
  · exact h.of_poolsStep (handleWorkerRemoved_poolsStep h').1
  · obtain ⟨s₁, h₁, rfl⟩ := handleWorkerBlocked_poolsStep h'
    exact (of_poolsStep (s := s.creditResources R) h h₁).dispatchTasks
  · exact of_poolsStep (s := s.debitResources R) h (handleWorkerUnblocked_poolsStep h').1
  · unfold TrackerInvariant
    rw [ha, hk]
    exact h

end TrackerInvariant

/-! ## Every reachable state -/

theorem reachable_trackerInvariant {s : LocalSchedulerState n} (hs : Reachable s) :
    TrackerInvariant s := by
  induction hs with
  | init h =>
    unfold TrackerInvariant
    rw [h]
    exact Tracks.init
  | step _ he ih => exact ih.handleEvent he

/-- **The dependency tracker's representation invariant.** In every state the handlers reach
from `SchedulingAlgorithmState_init`: (a) no object is both local and remote; (b) every
by-reference argument of a task in the dispatch queue is local; (c) every waiting task misses
a by-reference argument; (d) an object is a key of `remote_objects` exactly when it is not
local and a waiting task passes it by reference, and then its dependents are the waiting
tasks' cursors, one per by-reference use, in some order. The cursors of the waiting queue are
distinct, so each dependent names one live node, and `remote_objects` has each key once. A
run ends at a failed `CHECK` and at a dereference of a cursor that has no node. -/
theorem dependency_tracker_invariant (s : LocalSchedulerState n) (hs : Reachable s) :
    (∀ o ∈ s.algorithmState.remoteObjects.map Prod.fst, s.algorithmState.localObjects o = false) ∧
    (∀ t ∈ s.algorithmState.dispatchTaskQueue, ∀ o ∈ t.spec.refIds,
      s.algorithmState.localObjects o = true) ∧
    (∀ p ∈ s.algorithmState.waitingTaskQueue, ∃ o ∈ p.2.spec.refIds,
      s.algorithmState.localObjects o = false) ∧
    (∀ o, (o ∈ s.algorithmState.remoteObjects.map Prod.fst ↔ s.algorithmState.localObjects o = false ∧
        ∃ p ∈ s.algorithmState.waitingTaskQueue, o ∈ p.2.spec.refIds) ∧
      (s.algorithmState.localObjects o = false →
        List.Perm (dependentsIn s.algorithmState.remoteObjects o)
          (expectedDependents s.algorithmState.waitingTaskQueue o))) ∧
    (s.algorithmState.waitingTaskQueue.map Prod.fst).Nodup ∧
    (s.algorithmState.remoteObjects.map Prod.fst).Nodup := by
  have h := reachable_trackerInvariant hs
  have hremote : ∀ o ∈ s.algorithmState.remoteObjects.map Prod.fst,
      s.algorithmState.localObjects o = false := fun o ho => by
    by_contra hL
    exact h.table.dependentsIn_ne_nil ho (h.dependentsIn_eq_nil (by simpa using hL))
  refine ⟨hremote, h.dispatch_local, h.waiting_missing, fun o => ⟨⟨fun ho => ?_, ?_⟩, fun hL => ?_⟩,
    h.cursors_nodup, h.table.keys_nodup⟩
  · have hperm := h.dependents o
    rw [hremote o ho, if_neg Bool.false_ne_true] at hperm
    obtain ⟨c, hc⟩ := List.exists_mem_of_ne_nil _ (h.table.dependentsIn_ne_nil ho)
    obtain ⟨p, hp, -, hop⟩ := mem_expectedDependents.1 (hperm.subset hc)
    exact ⟨hremote o ho, p, hp, hop⟩
  · rintro ⟨hL, p, hp, hop⟩
    by_contra ho
    have hperm := h.dependents o
    rw [hL, if_neg Bool.false_ne_true, dependentsIn_eq_nil_of_not_mem ho] at hperm
    exact List.not_mem_nil _ (hperm.symm.subset (mem_expectedDependents.2 ⟨p, hp, rfl, hop⟩))
  · simpa [hL] using h.dependents o

/-! ## Runs -/

/-- A node with a database client and a global scheduler, on one unit of one resource. -/
def trackerNode : LocalSchedulerState 1 where
  algorithmState := SchedulingAlgorithmState.init 1
  db := some 1
  globalSchedulerExists := true
  actorMapping := fun _ => none
  staticResources := fun _ => 1
  dynamicResources := fun _ => 1
  plasmaConnected := true
  numChildPids := 0
  nextAddress := 0

/-- A regular task of driver `0` that passes objects `3` and `4` by reference. -/
def twoArgTask : TaskSpec 1 := ⟨0, nilActorId, 0, [.byRef 3, .byRef 4], fun _ => 0⟩

/-- The global scheduler places the task here while neither object is local; then object
`3` arrives. -/
def twoArgEvents : List (Event 1) := [.taskScheduled twoArgTask 0 rfl, .objectAvailable 3]

/-- The end of that run. -/
def twoArgRun : LocalSchedulerState 1 × List (Observation 1) :=
  (runEvents trackerNode twoArgEvents).getD (trackerNode, [])

theorem runEvents_twoArgs : runEvents trackerNode twoArgEvents = some twoArgRun :=
  rfl

/-- The task still waits, on object `4` only, and its cursor is `4`'s one dependent. -/
example : twoArgRun.1.algorithmState.waitingTaskQueue.map Prod.fst = [1] ∧
    dependentsIn twoArgRun.1.algorithmState.remoteObjects 4 = [1] ∧
    twoArgRun.1.algorithmState.remoteObjects.map Prod.fst = [4] := by
  decide

theorem dependency_tracker_invariant_twoArgs :
    Reachable twoArgRun.1 ∧
    (∀ o ∈ twoArgRun.1.algorithmState.remoteObjects.map Prod.fst,
      twoArgRun.1.algorithmState.localObjects o = false) ∧
    (∀ t ∈ twoArgRun.1.algorithmState.dispatchTaskQueue, ∀ o ∈ t.spec.refIds,
      twoArgRun.1.algorithmState.localObjects o = true) ∧
    (∀ p ∈ twoArgRun.1.algorithmState.waitingTaskQueue, ∃ o ∈ p.2.spec.refIds,
      twoArgRun.1.algorithmState.localObjects o = false) ∧
    (∀ o, (o ∈ twoArgRun.1.algorithmState.remoteObjects.map Prod.fst ↔
        twoArgRun.1.algorithmState.localObjects o = false ∧
        ∃ p ∈ twoArgRun.1.algorithmState.waitingTaskQueue, o ∈ p.2.spec.refIds) ∧
      (twoArgRun.1.algorithmState.localObjects o = false →
        List.Perm (dependentsIn twoArgRun.1.algorithmState.remoteObjects o)
          (expectedDependents twoArgRun.1.algorithmState.waitingTaskQueue o))) ∧
    (twoArgRun.1.algorithmState.waitingTaskQueue.map Prod.fst).Nodup ∧
    (twoArgRun.1.algorithmState.remoteObjects.map Prod.fst).Nodup :=
  have h := runEvents_reachable (.init rfl) runEvents_twoArgs
  ⟨h, dependency_tracker_invariant _ h⟩

/-! ## An object passed twice -/

/-- A regular task of driver `0` that passes object `3` by reference twice. -/
def duplicateRefTask : TaskSpec 1 := ⟨0, nilActorId, 0, [.byRef 3, .byRef 3], fun _ => 0⟩

/-- **`handle_object_available` dereferences an erased node.** The global scheduler places a
task that passes the missing object `3` twice: `fetch_missing_dependencies` registers the
task's cursor twice with `3`, and the state satisfies the tracker invariant. When `3` arrives,
the loop over its dependents moves the task to the dispatch queue and erases its node at the
first copy of the cursor, and at the second copy reads `it->spec` through the erased node:
the run goes no further. -/
theorem handleObjectAvailable_duplicateRef :
    ∃ s, runEvents trackerNode [.taskScheduled duplicateRefTask 0 rfl] = some s ∧
      TrackerInvariant s.1 ∧
      dependentsIn s.1.algorithmState.remoteObjects 3 = [1, 1] ∧
      handleEvent s.1 (.objectAvailable 3) = none := by
  obtain ⟨s, hs⟩ : ∃ s, runEvents trackerNode [.taskScheduled duplicateRefTask 0 rfl] = some s :=
    Option.isSome_iff_exists.1 (by decide)
  refine ⟨s, hs, reachable_trackerInvariant (runEvents_reachable (.init rfl) hs), ?_⟩
  have : (runEvents trackerNode [.taskScheduled duplicateRefTask 0 rfl]).map
      (fun s => (dependentsIn s.1.algorithmState.remoteObjects 3,
        (handleEvent s.1 (.objectAvailable 3)).isNone)) = some ([1, 1], true) := by
    decide
  simpa [hs] using this

end LocalScheduler
