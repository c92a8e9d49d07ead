import LocalScheduler.TrackerInvariant
import LocalScheduler.ActorQueue

/-!
# Conservation of regular tasks

A regular task that the scheduler queues gets one `TaskQueueEntry`, made by `queue_waiting_task`
or `queue_dispatch_task` at a new address. From then on the entry moves between the waiting
and the dispatch queue, goes to a worker through `dispatch_tasks`, or is discarded by
`handle_driver_removed`. `EntryMoves` says what one step may do to the entries; each handler
has one lemma for it, and a run adds the steps up. The model ends a run at a failed `CHECK`
and at a dereference of a node that is gone, so these are statements about the runs that get
that far.

* `handleEvent_stepMoves` — every step moves the entries along the edges of the state machine,
  and hands regular tasks to workers only in the handlers that end in `dispatch_tasks`.
* `reachable_entriesWF` — in every reachable state no two queued entries share an address.
* `runEvents_ledger` — over a run, the entries queued at the start and those created are, with
  no copy, the entries queued at the end, those handed out and those discarded; the tasks the
  run brings are those of the created entries and those forwarded to the global scheduler.
* `regular_task_conservation` — over every run from the initial state no regular task is lost:
  each gets an entry or a `WAITING` row, each created entry ends in exactly one place, and no
  task is handed out twice.
-/

namespace LocalScheduler

open LocalSchedulerState

variable {n : Nat}

/-! ## Where a regular entry can be -/

/-- The entries of the two regular queues: the waiting queue's nodes in order, then the
dispatch queue. -/
def queuedEntries (a : SchedulingAlgorithmState n) : List (TaskQueueEntry n) :=
  a.waitingTaskQueue.map Prod.snd ++ a.dispatchTaskQueue

/-- The regular tasks among those `calls` hand to workers. -/
def regularAssigned (calls : List (Effect n)) : List (TaskQueueEntry n) :=
  ((assignments calls).map Prod.fst).filter fun t => t.spec.actorId = nilActorId

/-- The calls of a run's trace, in order. -/
def traceCalls (obs : List (Observation n)) : List (Effect n) :=
  obs.filterMap fun
    | .call c => some c
    | .event _ => none

/-- The entry a handler creates for the regular task of its event (`TaskQueueEntry_init` in
`queue_waiting_task` and `queue_dispatch_task`), at the allocator's address `next`. -/
def Event.newEntries (e : Event n) (next : Nat) : List (TaskQueueEntry n) :=
  match e with
  | .taskSubmitted spec size _ | .taskScheduled spec size _ => [⟨next, spec, size⟩]
  | _ => []

/-- The regular task an event brings to this scheduler: the spec and size of
`handle_task_submitted` and `handle_task_scheduled`. -/
def Event.regularTasks (e : Event n) : List (TaskSpec n × Int) :=
  match e with
  | .taskSubmitted spec size _ | .taskScheduled spec size _ => [(spec, size)]
  | _ => []

/-- The task an entry holds: its spec and size. -/
def TaskQueueEntry.task (t : TaskQueueEntry n) : TaskSpec n × Int := (t.spec, t.taskSpecSize)

/-- The `WAITING` row `give_task_to_global_scheduler` writes for a task it hands to the global
scheduler. -/
def waitingRow (p : TaskSpec n × Int) : Effect n := .taskTableAddTask ⟨p.1, p.2, .waiting, nilId⟩

/-- Where a step puts the `entries` the code would create for its tasks: it creates them all,
or it creates none and hands their tasks (`forwarded`) to the global scheduler, one `WAITING`
row each, in order, among its `calls`. -/
def Placed (entries created : List (TaskQueueEntry n)) (forwarded : List (TaskSpec n × Int))
    (calls : List (Effect n)) : Prop :=
  created = entries ∧ forwarded = [] ∨
    created = [] ∧ forwarded = entries.map TaskQueueEntry.task ∧
      (forwarded.map waitingRow).Sublist calls

/-- The queued entries `handle_driver_removed` discards: the driver's own, from each queue. -/
def Event.discarded (e : Event n) (a : SchedulingAlgorithmState n) : List (TaskQueueEntry n) :=
  match e with
  | .driverRemoved driverId =>
    (a.waitingTaskQueue.filter fun p => p.2.spec.driverId = driverId).map Prod.snd ++
      a.dispatchTaskQueue.filter fun t => t.spec.driverId = driverId
  | _ => []

/-- The handlers that end in `dispatch_tasks`. -/
def Event.dispatchesTasks : Event n → Bool
  | .taskSubmitted .. | .taskScheduled .. | .objectAvailable _ | .workerAvailable ..
  | .workerBlocked .. => true
  | _ => false

@[simp] theorem regularAssigned_nil : regularAssigned ([] : List (Effect n)) = [] := rfl

@[simp] theorem regularAssigned_append (calls calls' : List (Effect n)) :
    regularAssigned (calls ++ calls') = regularAssigned calls ++ regularAssigned calls' := by
  simp [regularAssigned]

theorem regularAssigned_eq_nil {calls : List (Effect n)} (h : assignments calls = []) :
    regularAssigned calls = [] := by
  simp [regularAssigned, h]

theorem traceCalls_step (e : Event n) (calls : List (Effect n)) (obs : List (Observation n)) :
    traceCalls (.event e :: calls.map .call ++ obs) = calls ++ traceCalls obs := by
  simp [traceCalls, List.filterMap_append, List.filterMap_map, Function.comp_def]

theorem Event.mem_newEntries {e : Event n} {k : Nat} {t : TaskQueueEntry n}
    (ht : t ∈ e.newEntries k) : t.specAddr = k ∧ t.spec.actorId = nilActorId := by
  cases e <;> simp only [Event.newEntries, List.mem_singleton, List.not_mem_nil] at ht <;>
    subst ht <;> exact ⟨rfl, ‹_›⟩

theorem Event.newEntries_task (e : Event n) (k : Nat) :
    (e.newEntries k).map TaskQueueEntry.task = e.regularTasks := by
  cases e <;> rfl

namespace Placed

variable {E C : List (TaskQueueEntry n)} {F : List (TaskSpec n × Int)} {calls : List (Effect n)}

theorem none (calls : List (Effect n)) : Placed ([] : List (TaskQueueEntry n)) [] [] calls :=
  .inl ⟨rfl, rfl⟩

theorem sublist (h : Placed E C F calls) : C.Sublist E := by
  rcases h with ⟨rfl, -⟩ | ⟨rfl, -⟩
  · exact List.Sublist.refl _
  · exact List.nil_sublist _

/-- Between them, the entries created and the tasks forwarded are the tasks of the entries
the code would create. -/
theorem tasks (h : Placed E C F calls) :
    C.map TaskQueueEntry.task ++ F = E.map TaskQueueEntry.task := by
  rcases h with ⟨rfl, rfl⟩ | ⟨rfl, rfl, -⟩ <;> simp

theorem rows (h : Placed E C F calls) : (F.map waitingRow).Sublist calls := by
  rcases h with ⟨-, rfl⟩ | ⟨-, -, h⟩
  · exact List.nil_sublist _
  · exact h

theorem append (h : Placed E C F calls) (calls' : List (Effect n)) :
    Placed E C F (calls ++ calls') :=
  h.imp_right fun ⟨hC, hF, hrows⟩ => ⟨hC, hF, hrows.trans (List.sublist_append_left _ _)⟩

end Placed

theorem Event.mem_discarded {e : Event n} {a : SchedulingAlgorithmState n} {t : TaskQueueEntry n}
    (ht : t ∈ e.discarded a) : ∃ d, e = .driverRemoved d ∧ t.spec.driverId = d := by
  cases e <;> simp only [Event.discarded, List.not_mem_nil] at ht
  simp only [List.mem_append, List.mem_map, List.mem_filter, decide_eq_true_eq] at ht
  rcases ht with ⟨p, ⟨-, hp⟩, rfl⟩ | ⟨-, ht⟩
  · exact ⟨_, rfl, hp⟩
  · exact ⟨_, rfl, ht⟩

/-! ## How a step moves the entries -/

/-- How a step moves the regular entries from the queues of `a` to those of `a'`. With the
entries it `created`, the queued entries before are, without a copy, those queued after, those
handed to workers (`assigned`) and those `discarded`. An entry changes queue only along an edge
the step allows: waiting to dispatch when `toDispatch` holds, dispatch to waiting when
`toWaiting` holds; it reaches a worker from the dispatch queue, or through it. -/
structure EntryMoves (a a' : SchedulingAlgorithmState n)
    (assigned discarded created : List (TaskQueueEntry n)) (toDispatch toWaiting : Prop) :
    Prop where
  perm : List.Perm (queuedEntries a' ++ assigned ++ discarded) (queuedEntries a ++ created)
  waiting : ∀ t ∈ a'.waitingTaskQueue.map Prod.snd, t ∈ a.waitingTaskQueue.map Prod.snd ∨
    t ∈ created ∨ toWaiting ∧ t ∈ a.dispatchTaskQueue
  dispatch : ∀ t ∈ a'.dispatchTaskQueue, t ∈ a.dispatchTaskQueue ∨ t ∈ created ∨
    toDispatch ∧ t ∈ a.waitingTaskQueue.map Prod.snd
  assigned : ∀ t ∈ assigned, t ∈ a.dispatchTaskQueue ∨ t ∈ created ∨
    toDispatch ∧ t ∈ a.waitingTaskQueue.map Prod.snd

theorem Interleave.perm {α : Type} {l xs ys : List α} (h : Interleave l xs ys) :
    List.Perm l (xs ++ ys) := by
  induction h with
  | nil => exact List.Perm.refl _
  | left _ ih => exact ih.cons _
  | right _ ih => exact (ih.cons _).trans List.perm_middle.symm

/-- `dispatch_tasks` hands out a subsequence of the dispatch queue; when that queue holds
regular tasks only, they are the regular tasks it hands out. -/
theorem dispatchTasks_handOuts (q : LocalSchedulerState n)
    (hreg : ∀ t ∈ q.algorithmState.dispatchTaskQueue, t.spec.actorId = nilActorId) :
    ∃ A, Interleave q.algorithmState.dispatchTaskQueue A
        (dispatchTasks q).1.algorithmState.dispatchTaskQueue ∧
      regularAssigned (dispatchTasks q).2 = A := by
  obtain ⟨A, h⟩ := dispatchTasksLoop_spec q.algorithmState.dispatchTaskQueue q
  have hA : (assignments (dispatchTasks q).2).map Prod.fst = A := by
    rw [show assignments (dispatchTasks q).2 = _ from h.assignments_eq]
    exact List.map_fst_zip _ _ (by simpa using h.length_le)
  refine ⟨A, h.interleave, ?_⟩
  rw [regularAssigned, hA, List.filter_eq_self]
  exact fun t ht => decide_eq_true (hreg t (h.interleave.mem_left ht))

namespace EntryMoves

variable {a a' : SchedulingAlgorithmState n} {A X C : List (TaskQueueEntry n)} {P Q : Prop}

theorem of_eq (hW : a'.waitingTaskQueue = a.waitingTaskQueue)
    (hD : a'.dispatchTaskQueue = a.dispatchTaskQueue) : EntryMoves a a' [] [] [] P Q where
  perm := by simp [queuedEntries, hW, hD]
  waiting t ht := .inl (hW ▸ ht)
  dispatch t ht := .inl (hD ▸ ht)
  assigned t ht := absurd ht (List.not_mem_nil t)

/-- What holds of every queued and every created entry holds of every entry queued after. -/
theorem forall_queued (h : EntryMoves a a' A X C P Q) {R : TaskQueueEntry n → Prop}
    (ha : ∀ t ∈ queuedEntries a, R t) (hC : ∀ t ∈ C, R t) :
    ∀ t ∈ queuedEntries a', R t := by
  intro t ht
  rcases List.mem_append.1 (h.perm.subset (List.mem_append_left _ (List.mem_append_left _ ht)))
    with ht | ht
  · exact ha t ht
  · exact hC t ht

/-- `dispatch_tasks` after a step that handed nothing out, from regular entries. -/
theorem dispatchTasks {q : LocalSchedulerState n}
    (h : EntryMoves a q.algorithmState [] X C P Q)
    (hreg : ∀ t ∈ queuedEntries a, t.spec.actorId = nilActorId)
    (hC : ∀ t ∈ C, t.spec.actorId = nilActorId) :
    EntryMoves a (LocalScheduler.dispatchTasks q).1.algorithmState
      (regularAssigned (LocalScheduler.dispatchTasks q).2) X C P Q := by
  obtain ⟨A, hI, hA⟩ := dispatchTasks_handOuts q fun t ht =>
    h.forall_queued hreg hC t (List.mem_append_right _ ht)
  rw [hA]
  refine ⟨?_, fun t ht => ?_, fun t ht => h.dispatch t (hI.mem_right ht),
    fun t ht => h.dispatch t (hI.mem_left ht)⟩
  · have hD : List.Perm
        ((LocalScheduler.dispatchTasks q).1.algorithmState.dispatchTaskQueue ++ A ++ X)
        (q.algorithmState.dispatchTaskQueue ++ X) :=
      (List.perm_append_comm.trans hI.perm.symm).append_right X
    refine List.Perm.trans ?_ h.perm
    simp only [queuedEntries, dispatchTasks_waitingTaskQueue, List.append_nil, List.append_assoc]
    exact List.Perm.append_left _ (by simpa only [List.append_assoc] using hD)
  · rw [dispatchTasks_waitingTaskQueue] at ht
    exact h.waiting t ht

/-- Waiting entries chosen by `g` move to the back of the dispatch queue, in some order. -/
theorem promote (g : Nat × TaskQueueEntry n → Bool) {M : List (TaskQueueEntry n)}
    (hM : List.Perm M ((a.waitingTaskQueue.filter g).map Prod.snd))
    (hW : a'.waitingTaskQueue = a.waitingTaskQueue.filter fun p => !g p)
    (hD : a'.dispatchTaskQueue = a.dispatchTaskQueue ++ M) (hP : P) :
    EntryMoves a a' [] [] [] P Q := by
  have hsplit : List.Perm ((a.waitingTaskQueue.filter fun p => !g p).map Prod.snd ++ M)
      (a.waitingTaskQueue.map Prod.snd) := by
    refine (hM.append_left _).trans ?_
    rw [← List.map_append]
    have := List.filter_append_perm (fun p => !g p) a.waitingTaskQueue
    simp only [Bool.not_not] at this
    exact this.map _
  refine ⟨?_, fun t ht => .inl ?_, fun t ht => ?_, List.forall_mem_nil _⟩
  · simp only [queuedEntries, hW, hD, List.append_nil, List.append_assoc]
    exact (List.perm_append_comm.append_left _).trans
      (by simpa only [List.append_assoc] using hsplit.append_right a.dispatchTaskQueue)
  · rw [hW] at ht
    exact List.map_subset _ (List.filter_sublist _).subset ht
  · rw [hD, List.mem_append] at ht
    rcases ht with ht | ht
    · exact .inl ht
    · exact .inr (.inr ⟨hP, hsplit.subset (List.mem_append_right _ ht)⟩)

end EntryMoves

/-! ## Queueing a regular task -/

section Queueing

variable {s : LocalSchedulerState n} {r q : LocalSchedulerState n × List (Effect n)}
  {spec : TaskSpec n} {size : Int} {g : Bool} {P Q : Prop}

theorem queueDispatchTask_entryMoves (s : LocalSchedulerState n) (spec : TaskSpec n)
    (size : Int) (g : Bool) :
    EntryMoves s.algorithmState (queueDispatchTask s spec size g).1.algorithmState [] []
      [⟨s.nextAddress, spec, size⟩] P Q where
  perm := by simp [queuedEntries, queueDispatchTask]
  waiting _ ht := .inl ht
  dispatch t ht := by
    simp only [queueDispatchTask, List.mem_append, List.mem_singleton] at ht
    exact ht.imp_right fun h => .inl (List.mem_singleton.2 h)
  assigned := List.forall_mem_nil _

theorem queueWaitingTask_entryMoves (hq : queueWaitingTask s spec size g = some r) :
    EntryMoves s.algorithmState r.1.algorithmState [] [] [⟨s.nextAddress, spec, size⟩] P Q ∧
      s.nextAddress < r.1.nextAddress := by
  simp only [queueWaitingTask, Option.bind_eq_bind, Option.bind_eq_some, Option.pure_def,
    Option.some.injEq] at hq
  obtain ⟨r', hr', rfl⟩ := hq
  obtain ⟨-, rfl⟩ := fetchMissingDependencies_eq hr'
  obtain ⟨hW, hD, -, hk⟩ := fetchArgs_fields (fun o => !s.algorithmState.localObjects o)
    (s.nextAddress + 1) spec.args { s with
      nextAddress := s.nextAddress + 2,
      algorithmState.waitingTaskQueue :=
        s.algorithmState.waitingTaskQueue ++
          [(s.nextAddress + 1, ⟨s.nextAddress, spec, size⟩)] }
  refine ⟨⟨?_, fun t ht => ?_, fun t ht => ?_, List.forall_mem_nil _⟩, ?_⟩
  · simp only [queuedEntries, hW, hD, List.map_append, List.map_cons, List.map_nil,
      List.append_nil, List.append_assoc, List.singleton_append]
    exact (List.perm_append_singleton _ _).symm.append_left _
  · simp only [hW, List.map_append, List.mem_append, List.map_cons, List.map_nil] at ht
    exact ht.imp_right .inl
  · rw [hD] at ht
    exact .inl ht
  · simp only [hk]
    omega

theorem queueTaskLocally_entryMoves (hq : queueTaskLocally s spec size g = some r) :
    EntryMoves s.algorithmState r.1.algorithmState [] [] [⟨s.nextAddress, spec, size⟩] P Q ∧
      s.nextAddress < r.1.nextAddress := by
  unfold queueTaskLocally at hq
  split at hq
  · cases hq
    exact ⟨queueDispatchTask_entryMoves s spec size g, Nat.lt_succ_self _⟩
  · exact queueWaitingTask_entryMoves hq

/-- Queueing a regular task either creates its entry, at the allocator's address, or hands the
task to the global scheduler with a `WAITING` row. -/
def QueuedFrom (s : LocalSchedulerState n) (spec : TaskSpec n) (size : Int)
    (q : LocalSchedulerState n × List (Effect n)) (P Q : Prop) : Prop :=
  ∃ C F, Placed [⟨s.nextAddress, spec, size⟩] C F q.2 ∧ (∀ t ∈ C, t.specAddr < q.1.nextAddress) ∧
    EntryMoves s.algorithmState q.1.algorithmState [] [] C P Q

theorem queueDispatchTask_queuedFrom (s : LocalSchedulerState n) (spec : TaskSpec n)
    (size : Int) (g : Bool) : QueuedFrom s spec size (queueDispatchTask s spec size g) P Q :=
  ⟨_, [], .inl ⟨rfl, rfl⟩, fun _ ht => List.mem_singleton.1 ht ▸ Nat.lt_succ_self _,
    queueDispatchTask_entryMoves s spec size g⟩

theorem queueTaskLocally_queuedFrom (hq : queueTaskLocally s spec size g = some r) :
    QueuedFrom s spec size r P Q := by
  obtain ⟨h, hlt⟩ := queueTaskLocally_entryMoves hq
  exact ⟨_, [], .inl ⟨rfl, rfl⟩, fun t ht => List.mem_singleton.1 ht ▸ hlt, h⟩

/-- `give_task_to_global_scheduler` queues the task here, or writes its `WAITING` row and
leaves the queues alone. -/
theorem giveTaskToGlobalScheduler_queuedFrom
    (hq : giveTaskToGlobalScheduler s spec size = some r) : QueuedFrom s spec size r P Q := by
  unfold giveTaskToGlobalScheduler at hq
  split at hq
  · exact queueTaskLocally_queuedFrom hq
  · cases hq
    exact ⟨[], _, .inr ⟨rfl, rfl, List.Sublist.refl _⟩, List.forall_mem_nil _, .of_eq rfl rfl⟩

/-- Queueing, then `dispatch_tasks`: the tail of `handle_task_submitted` and
`handle_task_scheduled`. -/
theorem QueuedFrom.dispatchTasks (h : QueuedFrom s spec size q P Q) (hq : TrackerStep s q)
    (hreg : ∀ t ∈ queuedEntries s.algorithmState, t.spec.actorId = nilActorId)
    (hspec : spec.actorId = nilActorId) :
    ∃ C F, Placed [⟨s.nextAddress, spec, size⟩] C F (q.2 ++ (dispatchTasks q.1).2) ∧
      (∀ t ∈ C, t.specAddr < (dispatchTasks q.1).1.nextAddress) ∧
      EntryMoves s.algorithmState (dispatchTasks q.1).1.algorithmState
        (regularAssigned (q.2 ++ (dispatchTasks q.1).2)) [] C P Q := by
  obtain ⟨C, F, hC, haddr, h⟩ := h
  refine ⟨C, F, hC.append _, by simpa using haddr, ?_⟩
  rw [regularAssigned_append, regularAssigned_eq_nil hq.assignments_eq, List.nil_append]
  refine h.dispatchTasks hreg fun t ht => ?_
  rw [List.mem_singleton.1 (hC.sublist.subset ht)]
  exact hspec

theorem handleTaskSubmitted_entryMoves (hreg : ∀ t ∈ queuedEntries s.algorithmState,
      t.spec.actorId = nilActorId) (hspec : spec.actorId = nilActorId)
    (h : handleTaskSubmitted s spec size = some r) :
    ∃ C F, Placed [⟨s.nextAddress, spec, size⟩] C F r.2 ∧
      (∀ t ∈ C, t.specAddr < r.1.nextAddress) ∧
      EntryMoves s.algorithmState r.1.algorithmState (regularAssigned r.2) [] C P Q := by
  simp only [handleTaskSubmitted, Option.bind_eq_bind, Option.bind_eq_some, Option.pure_def,
    Option.some.injEq] at h
  obtain ⟨q, hq, rfl⟩ := h
  have hq' : QueuedFrom s spec size q P Q ∧ TrackerStep s q := by
    split at hq
    · cases hq
      exact ⟨queueDispatchTask_queuedFrom s spec size false,
        queueDispatchTask_trackerStep s spec size false⟩
    · exact ⟨giveTaskToGlobalScheduler_queuedFrom hq, giveTaskToGlobalScheduler_trackerStep hq⟩
  exact hq'.1.dispatchTasks hq'.2 hreg hspec

theorem handleTaskScheduled_entryMoves (hreg : ∀ t ∈ queuedEntries s.algorithmState,
      t.spec.actorId = nilActorId) (hspec : spec.actorId = nilActorId)
    (h : handleTaskScheduled s spec size = some r) :
    ∃ C F, Placed [⟨s.nextAddress, spec, size⟩] C F r.2 ∧
      (∀ t ∈ C, t.specAddr < r.1.nextAddress) ∧
      EntryMoves s.algorithmState r.1.algorithmState (regularAssigned r.2) [] C P Q := by
  simp only [handleTaskScheduled, check_bind, Option.bind_eq_bind, Option.bind_eq_some,
    Option.pure_def, Option.some.injEq, Option.ite_none_right_eq_some] at h
  obtain ⟨-, -, q, hq, rfl⟩ := h
  exact (queueTaskLocally_queuedFrom hq).dispatchTasks (queueTaskLocally_trackerStep hq) hreg
    hspec

end Queueing

/-! ## Objects and drivers -/

section Objects

variable {s : LocalSchedulerState n} {r : LocalSchedulerState n × List (Effect n)} {P Q : Prop}

/-- `handle_object_available` moves waiting entries to the dispatch queue, and dispatches. -/
theorem handleObjectAvailable_entryMoves {O : ObjectID}
    (hW : (s.algorithmState.waitingTaskQueue.map Prod.fst).Nodup)
    (hreg : ∀ t ∈ queuedEntries s.algorithmState, t.spec.actorId = nilActorId) (hP : P)
    (h : handleObjectAvailable s O = some r) :
    EntryMoves s.algorithmState r.1.algorithmState (regularAssigned r.2) [] [] P Q := by
  simp only [handleObjectAvailable, check_bind, Option.ite_none_right_eq_some] at h
  obtain ⟨-, h⟩ := h
  split at h
  · cases h
    exact .of_eq rfl rfl
  · simp only [Option.bind_eq_bind, Option.bind_eq_some, Option.pure_def,
      Option.some.injEq] at h
    obtain ⟨a', ha', rfl⟩ := h
    obtain ⟨M, hM, rfl⟩ := moveDependentTasks_eq (by exact hW) ha'
    refine EntryMoves.dispatchTasks (EntryMoves.promote (a := s.algorithmState) _ hM ?_ ?_ hP)
      hreg (List.forall_mem_nil _) <;> rfl

/-- `handle_object_removed` moves the dispatch queue's entries that use the object back to the
waiting queue, in new nodes. -/
theorem handleObjectRemoved_entryMoves {O : ObjectID} (hQ : Q)
    (h : handleObjectRemoved s O = some r) :
    EntryMoves s.algorithmState r.1.algorithmState (regularAssigned r.2) [] [] P Q := by
  rw [regularAssigned_eq_nil (handleObjectRemoved_trackerStep h).assignments_eq]
  simp only [handleObjectRemoved, check_bind, Option.pure_def, Option.ite_none_right_eq_some,
    Option.some.injEq] at h
  obtain ⟨-, rfl⟩ := h
  obtain ⟨N, hNs, -, hreq⟩ := requeueDependentTasks_eq O s.algorithmState.dispatchTaskQueue
    { s with algorithmState.localObjects := Function.update s.algorithmState.localObjects O false }
  rw [hreq]
  obtain ⟨hW, hD, -, -⟩ := refetchRemoved_fields O (s.algorithmState.waitingTaskQueue ++ N)
    { s with
      nextAddress := s.nextAddress + N.length
      algorithmState.waitingTaskQueue := s.algorithmState.waitingTaskQueue ++ N
      algorithmState.dispatchTaskQueue :=
        s.algorithmState.dispatchTaskQueue.filter fun t => !t.spec.isDependentOn O
      algorithmState.localObjects := Function.update s.algorithmState.localObjects O false }
  refine ⟨?_, fun t ht => ?_, fun t ht => ?_, List.forall_mem_nil _⟩
  · simp only [queuedEntries, hW, hD, List.map_append, hNs, List.append_nil, List.append_assoc]
    exact (List.filter_append_perm _ _).append_left _
  · simp only [hW, List.map_append, hNs, List.mem_append, List.mem_filter] at ht
    exact ht.imp_right fun ht => .inr ⟨hQ, ht.1⟩
  · rw [hD] at ht
    exact .inl (List.mem_of_mem_filter ht)

/-- `handle_driver_removed` discards the driver's entries from both queues. -/
theorem handleDriverRemoved_entryMoves {d : WorkerID} (h : handleDriverRemoved s d = some r) :
    EntryMoves s.algorithmState r.1.algorithmState (regularAssigned r.2)
      ((Event.driverRemoved d).discarded s.algorithmState) [] P Q := by
  simp only [handleDriverRemoved, Option.bind_eq_bind, Option.bind_eq_some, Option.pure_def,
    Option.some.injEq] at h
  obtain ⟨R', -, rfl⟩ := h
  refine ⟨?_, fun t ht => ?_, fun t ht => ?_, List.forall_mem_nil _⟩
  · have hW := List.filter_append_perm (fun p => decide (p.2.spec.driverId ≠ d))
      s.algorithmState.waitingTaskQueue
    have hD := List.filter_append_perm (fun t => decide (t.spec.driverId ≠ d))
      s.algorithmState.dispatchTaskQueue
    simp only [ne_eq, decide_not, Bool.not_not] at hW hD
    simp only [queuedEntries, Event.discarded, ne_eq, decide_not, regularAssigned_nil,
      List.append_nil, List.nil_append, List.append_assoc]
    have hW' := hW.map Prod.snd
    rw [List.map_append] at hW'
    refine List.Perm.trans ?_ (hW'.append hD)
    rw [List.append_assoc]
    exact (List.perm_append_comm_assoc _ _ _).append_left _
  · simp only [List.mem_map, List.mem_filter] at ht
    obtain ⟨p, ⟨hp, -⟩, rfl⟩ := ht
    exact .inl (List.mem_map_of_mem _ hp)
  · exact .inl (List.mem_of_mem_filter ht)

end Objects

/-! ## The actor path hands out no regular task -/

/-- Every task in an actor's queue is that actor's. -/
def LocalActorInfo.QueueKeyed (A : ActorID) (info : LocalActorInfo n) : Prop :=
  ∀ t ∈ info.taskQueue, t.spec.actorId = A

/-- Every operation keeps each queue to its actor's tasks (an insertion checks the task's
actor), and a dispatch hands out a task of its actor, which is not the nil actor. -/
theorem ActorOp.queueKeyed {A : ActorID} {k : ActorOpKind} {o o' : Option (LocalActorInfo n)}
    {c : List (TaskQueueEntry n × LocalSchedulerClient)} (h : ActorOp A k o o' c)
    (ho : ∀ info ∈ o, info.QueueKeyed A) :
    (∀ info ∈ o', info.QueueKeyed A) ∧ ∀ p ∈ c, p.1.spec.actorId ≠ nilActorId := by
  cases h with
  | create => simp [LocalActorInfo.QueueKeyed]
  | insert hactor _ =>
    refine ⟨?_, List.forall_mem_nil _⟩
    simp only [Option.mem_def, Option.some.injEq, forall_eq']
    intro t ht
    rcases mem_insertActorTask.1 ht with rfl | ht
    · exact hactor
    · exact ho _ rfl t ht
  | connect => exact ⟨by simpa [LocalActorInfo.QueueKeyed] using ho, List.forall_mem_nil _⟩
  | available => exact ⟨by simpa [LocalActorInfo.QueueKeyed] using ho, List.forall_mem_nil _⟩
  | dispatch hA hq =>
    have hkeyed := ho _ rfl
    rw [LocalActorInfo.QueueKeyed, hq] at hkeyed
    refine ⟨?_, ?_⟩
    · simp only [Option.mem_def, Option.some.injEq, forall_eq']
      exact fun t ht => hkeyed t (List.mem_cons_of_mem _ ht)
    · simp only [List.mem_singleton, forall_eq]
      rw [hkeyed _ (List.mem_cons_self _ _)]
      exact hA
  | remove => simp

theorem ActorOps.handOuts_not_regular {ks : List (ActorID × ActorOpKind)}
    {I I' : ActorID → Option (LocalActorInfo n)}
    {c : List (TaskQueueEntry n × LocalSchedulerClient)}
    (h : ActorOps ks I I' c) (hI : ∀ A, ∀ info ∈ I A, info.QueueKeyed A) :
    ∀ p ∈ c, p.1.spec.actorId ≠ nilActorId := by
  induction h with
  | refl => exact List.forall_mem_nil _
  | cons h₁ _ ih =>
    intro p hp
    rcases List.mem_append.1 hp with hp | hp
    · exact (h₁.queueKeyed (hI _)).2 p hp
    · exact ih ((ActorOps.single h₁).preserve (fun hop ho => (hop.queueKeyed ho).1) hI) p hp

theorem reachable_queueKeyed {s : LocalSchedulerState n} (hs : Reachable s) :
    ∀ A, ∀ info ∈ s.algorithmState.localActorInfos A, info.QueueKeyed A :=
  reachable_actorRecords (fun hop ho => (hop.queueKeyed ho).1) hs

theorem ActorPathStep.regularAssigned_eq_nil {allowed : List (ActorID × ActorOpKind) → Prop}
    {s : LocalSchedulerState n} {r : LocalSchedulerState n × List (Effect n)}
    (hr : ActorPathStep allowed s r)
    (hI : ∀ A, ∀ info ∈ s.algorithmState.localActorInfos A, info.QueueKeyed A) :
    regularAssigned r.2 = [] := by
  obtain ⟨ks, hops, -⟩ := hr.records
  rw [regularAssigned, List.filter_eq_nil_iff]
  intro t ht
  obtain ⟨p, hp, rfl⟩ := List.mem_map.1 ht
  simpa using hops.handOuts_not_regular hI p hp

/-! ## One step -/

section Step

variable {s : LocalSchedulerState n} {e : Event n} {r : LocalSchedulerState n × List (Effect n)}

/-- What one step does to the regular entries: it creates the entry of its event's regular
task, at the allocator's address, or hands the task to the global scheduler, and moves the
other entries along the edges its event allows. -/
def StepMoves (s : LocalSchedulerState n) (e : Event n)
    (r : LocalSchedulerState n × List (Effect n)) : Prop :=
  ∃ C F, Placed (e.newEntries s.nextAddress) C F r.2 ∧ (∀ t ∈ C, t.specAddr < r.1.nextAddress) ∧
    EntryMoves s.algorithmState r.1.algorithmState (regularAssigned r.2)
      (e.discarded s.algorithmState) C (∃ o, e = .objectAvailable o) (∃ o, e = .objectRemoved o)

/-- A step off the regular path that does not dispatch leaves the regular queues alone and
hands out no regular task. -/
theorem handleEvent_otherMoves {P Q : Prop}
    (hkeyed : ∀ A, ∀ info ∈ s.algorithmState.localActorInfos A, info.QueueKeyed A)
    (h : handleEvent s e = some r) (hreg : e.regular = false) (hd : e.dispatchesTasks = false) :
    EntryMoves s.algorithmState r.1.algorithmState (regularAssigned r.2) [] [] P Q ∧
      regularAssigned r.2 = [] := by
  have : r.1.algorithmState.waitingTaskQueue = s.algorithmState.waitingTaskQueue ∧
      r.1.algorithmState.dispatchTaskQueue = s.algorithmState.dispatchTaskQueue ∧
      regularAssigned r.2 = [] := by
    rcases handleEvent_cases h with ⟨-, hr, -⟩ | hr | ⟨w, R, hw, rfl, -⟩ | ⟨w, -, h⟩ |
      ⟨w, R, rfl, -⟩ | ⟨w, R, -, h⟩ | ⟨-, ha, -, hc, -⟩
    · exact absurd hr (by simp [hreg])
    · exact ⟨hr.frame.regular.waiting, hr.frame.regular.dispatch,
        hr.regularAssigned_eq_nil hkeyed⟩
    · cases hd
    · obtain ⟨h₁, hc⟩ := handleWorkerRemoved_poolsStep h
      exact ⟨h₁.waiting, h₁.dispatch, by simp [regularAssigned, hc]⟩
    · cases hd
    · obtain ⟨h₁, hc⟩ := handleWorkerUnblocked_poolsStep h
      exact ⟨h₁.waiting, h₁.dispatch, by simp [regularAssigned, hc]⟩
    · exact ⟨by rw [ha], by rw [ha], by simp [regularAssigned, hc]⟩
  obtain ⟨hW, hD, hA⟩ := this
  rw [hA]
  exact ⟨.of_eq hW hD, rfl⟩

theorem handleEvent_nextAddress_le (h : handleEvent s e = some r) :
    s.nextAddress ≤ r.1.nextAddress := by
  rcases handleEvent_cases h with ⟨-, -, q, hq, ⟨rfl, -⟩ | rfl⟩ | hr | ⟨w, R, -, -, h⟩ |
    ⟨w, -, h⟩ | ⟨w, R, -, h⟩ | ⟨w, R, -, h⟩ | ⟨-, -, -, -, hk⟩
  · exact hq.queues.nextAddress
  · simpa using hq.queues.nextAddress
  · exact hr.frame.nextAddress
  · obtain ⟨s₁, h₁, rfl⟩ := handleWorkerAvailable_poolsStep h
    simpa using h₁.nextAddress.ge
  · exact (handleWorkerRemoved_poolsStep h).1.nextAddress.ge
  · obtain ⟨s₁, h₁, rfl⟩ := handleWorkerBlocked_poolsStep h
    simpa using h₁.nextAddress.ge
  · exact (handleWorkerUnblocked_poolsStep h).1.nextAddress.ge
  · exact hk.ge

/-- Every step moves the regular entries as `StepMoves` says, and hands regular tasks to
workers only in the handlers that end in `dispatch_tasks`. -/
theorem handleEvent_stepMoves (hW : (s.algorithmState.waitingTaskQueue.map Prod.fst).Nodup)
    (hreg : ∀ t ∈ queuedEntries s.algorithmState, t.spec.actorId = nilActorId)
    (hkeyed : ∀ A, ∀ info ∈ s.algorithmState.localActorInfos A, info.QueueKeyed A)
    (h : handleEvent s e = some r) :
    StepMoves s e r ∧ (regularAssigned r.2 ≠ [] → e.dispatchesTasks = true) := by
  cases e with
  | taskSubmitted spec size hspec =>
    exact ⟨handleTaskSubmitted_entryMoves hreg hspec h, fun _ => rfl⟩
  | taskScheduled spec size hspec =>
    exact ⟨handleTaskScheduled_entryMoves hreg hspec h, fun _ => rfl⟩
  | objectAvailable o =>
    exact ⟨⟨[], [], .none _, List.forall_mem_nil _,
      handleObjectAvailable_entryMoves hW hreg ⟨o, rfl⟩ h⟩, fun _ => rfl⟩
  | objectRemoved o =>
    have hA := regularAssigned_eq_nil (handleObjectRemoved_trackerStep h).assignments_eq
    exact ⟨⟨[], [], .none _, List.forall_mem_nil _,
      handleObjectRemoved_entryMoves ⟨o, rfl⟩ h⟩, fun h' => (h' hA).elim⟩
  | driverRemoved d =>
    have hA := regularAssigned_eq_nil (handleDriverRemoved_trackerStep h).assignments_eq
    exact ⟨⟨[], [], .none _, List.forall_mem_nil _, handleDriverRemoved_entryMoves h⟩,
      fun h' => (h' hA).elim⟩
  | workerAvailable w R hw =>
    obtain ⟨s₁, h₁, rfl⟩ := handleWorkerAvailable_poolsStep h
    refine ⟨⟨[], [], .none _, List.forall_mem_nil _,
      .dispatchTasks ?_ hreg (List.forall_mem_nil _)⟩, fun _ => rfl⟩
    exact .of_eq h₁.waiting h₁.dispatch
  | workerBlocked w R =>
    obtain ⟨s₁, h₁, rfl⟩ := handleWorkerBlocked_poolsStep h
    refine ⟨⟨[], [], .none _, List.forall_mem_nil _,
      .dispatchTasks ?_ hreg (List.forall_mem_nil _)⟩, fun _ => rfl⟩
    exact .of_eq h₁.waiting h₁.dispatch
  | fetchTimeout =>
    cases h
    have hA := regularAssigned_eq_nil (fetchObjectTimeoutHandler_trackerStep s).assignments_eq
    refine ⟨⟨[], [], .none _, List.forall_mem_nil _, ?_⟩, fun h' => (h' hA).elim⟩
    rw [hA]
    exact .of_eq rfl rfl
  | _ =>
    obtain ⟨h₁, hA⟩ := handleEvent_otherMoves hkeyed h rfl rfl
    exact ⟨⟨[], [], .none _, List.forall_mem_nil _, h₁⟩, fun h' => (h' hA).elim⟩

end Step

/-! ## Every reachable state -/

/-- What the regular entries keep in every reachable state: no two queued entries share an
address, every address is below the allocator's, and every queued task is regular. -/
structure EntriesWF (s : LocalSchedulerState n) : Prop where
  addrs_nodup : ((queuedEntries s.algorithmState).map TaskQueueEntry.specAddr).Nodup
  addrs_lt : ∀ t ∈ queuedEntries s.algorithmState, t.specAddr < s.nextAddress
  regular : ∀ t ∈ queuedEntries s.algorithmState, t.spec.actorId = nilActorId

section Reachable

variable {s : LocalSchedulerState n} {e : Event n} {r : LocalSchedulerState n × List (Effect n)}
  {C : List (TaskQueueEntry n)}

/-- The entries queued before a step and the one it creates have distinct addresses. -/
theorem EntriesWF.nodup_created (h : EntriesWF s) (hC : C.Sublist (e.newEntries s.nextAddress)) :
    ((queuedEntries s.algorithmState ++ C).map TaskQueueEntry.specAddr).Nodup := by
  rw [List.map_append, List.nodup_append]
  refine ⟨h.addrs_nodup, (hC.map _).nodup (by cases e <;> simp [Event.newEntries]), ?_⟩
  rintro x hx hx'
  obtain ⟨t, ht, rfl⟩ := List.mem_map.1 hx
  obtain ⟨t', ht', hx⟩ := List.mem_map.1 hx'
  have hlt := h.addrs_lt t ht
  rw [← hx, (Event.mem_newEntries (hC.subset ht')).1] at hlt
  exact lt_irrefl _ hlt

theorem EntriesWF.step (h : EntriesWF s) (hm : StepMoves s e r)
    (hle : s.nextAddress ≤ r.1.nextAddress) : EntriesWF r.1 := by
  obtain ⟨C, F, hC, haddr, hmoves⟩ := hm
  refine ⟨?_, hmoves.forall_queued (fun t ht => (h.addrs_lt t ht).trans_le hle) haddr,
    hmoves.forall_queued h.regular fun t ht => (Event.mem_newEntries (hC.sublist.subset ht)).2⟩
  exact ((hmoves.perm.map _).nodup_iff.2 (h.nodup_created hC.sublist)).sublist
    (((List.sublist_append_left _ _).trans (List.sublist_append_left _ _)).map _)

theorem reachable_entriesWF (hs : Reachable s) : EntriesWF s := by
  induction hs with
  | init h =>
    refine ⟨?_, ?_, ?_⟩ <;> simp [queuedEntries, h, SchedulingAlgorithmState.init]
  | step hs' he ih =>
    exact ih.step (handleEvent_stepMoves (reachable_trackerInvariant hs').cursors_nodup ih.regular
      (reachable_queueKeyed hs') he).1 (handleEvent_nextAddress_le he)

theorem reachable_stepMoves (hs : Reachable s) (h : handleEvent s e = some r) :
    StepMoves s e r ∧ (regularAssigned r.2 ≠ [] → e.dispatchesTasks = true) :=
  handleEvent_stepMoves (reachable_trackerInvariant hs).cursors_nodup
    (reachable_entriesWF hs).regular (reachable_queueKeyed hs) h

end Reachable

/-! ## Runs -/

/-- Over a run from a reachable state, the entries queued at the start and those the run
created are, with no copy, those queued at the end, those handed to workers and those
discarded. Every created entry has a new address. The tasks the run submitted or scheduled
are, as a multiset, those of the created entries and those forwarded to the global scheduler,
each forwarded task with its own `WAITING` row among the run's calls. Every discarded entry
belongs to a driver the run removed. -/
theorem runEvents_ledger :
    ∀ {es : List (Event n)} {s : LocalSchedulerState n}
      {r : LocalSchedulerState n × List (Observation n)},
      Reachable s → runEvents s es = some r →
      ∃ created discarded : List (TaskQueueEntry n), ∃ forwarded : List (TaskSpec n × Int),
        List.Perm
          (queuedEntries r.1.algorithmState ++ regularAssigned (traceCalls r.2) ++ discarded)
          (queuedEntries s.algorithmState ++ created) ∧
        ((queuedEntries s.algorithmState ++ created).map TaskQueueEntry.specAddr).Nodup ∧
        (∀ t ∈ created, s.nextAddress ≤ t.specAddr) ∧
        List.Perm (created.map TaskQueueEntry.task ++ forwarded) (es.flatMap Event.regularTasks) ∧
        (forwarded.map waitingRow).Sublist (traceCalls r.2) ∧
        ∀ t ∈ discarded, ∃ d, Event.driverRemoved d ∈ es ∧ t.spec.driverId = d
  | [], s, _, hs, h => by
    cases h
    exact ⟨[], [], [], by simp [traceCalls], by simpa using (reachable_entriesWF hs).addrs_nodup,
      List.forall_mem_nil _, by simp, List.nil_sublist _, List.forall_mem_nil _⟩
  | e :: es, s, _, hs, h => by
    simp only [runEvents, Option.bind_eq_bind, Option.bind_eq_some, Option.pure_def,
      Option.some.injEq] at h
    obtain ⟨q, hq, r, hr, rfl⟩ := h
    have hwf := reachable_entriesWF hs
    have hle := handleEvent_nextAddress_le hq
    obtain ⟨⟨C, F, hC, haddr, hmoves⟩, -⟩ := reachable_stepMoves hs hq
    obtain ⟨created, discarded, forwarded, hperm, hnodup, hcreated, htasks, hrows, hdiscarded⟩ :=
      runEvents_ledger (hs.step hq) hr
    refine ⟨C ++ created, e.discarded s.algorithmState ++ discarded, F ++ forwarded, ?_, ?_,
      fun t ht => ?_, ?_, ?_, fun t ht => ?_⟩
    · -- the step's ledger and the rest's add up
      classical
      have hstep := hmoves.perm
      rw [traceCalls_step, regularAssigned_append]
      rw [List.perm_iff_count] at hperm hstep ⊢
      intro t
      have e₁ := hperm t
      have e₂ := hstep t
      simp only [List.count_append] at e₁ e₂ ⊢
      omega
    · -- what the rest creates lies above every address the step leaves
      rw [← List.append_assoc, List.map_append, List.nodup_append]
      rw [List.map_append, List.nodup_append] at hnodup
      refine ⟨hwf.nodup_created hC.sublist, hnodup.2.1, fun x hx hx' => ?_⟩
      obtain ⟨t, ht, rfl⟩ := List.mem_map.1 hx
      obtain ⟨t', ht', hx⟩ := List.mem_map.1 hx'
      have hlt : t.specAddr < q.1.nextAddress := by
        rcases List.mem_append.1 ht with ht | ht
        · exact (hwf.addrs_lt t ht).trans_le hle
        · exact haddr t ht
      have hge := hcreated t' ht'
      omega
    · rcases List.mem_append.1 ht with ht | ht
      · exact (Event.mem_newEntries (hC.sublist.subset ht)).1.ge
      · exact hle.trans (hcreated t ht)
    · -- the step places its own task, the rest places the others
      have hstep := hC.tasks
      rw [Event.newEntries_task] at hstep
      rw [List.flatMap_cons, ← hstep, List.map_append]
      simpa only [List.append_assoc] using
        ((List.perm_append_comm_assoc _ _ _).trans (htasks.append_left F)).append_left _
    · rw [traceCalls_step, List.map_append]
      exact hC.rows.append hrows
    · rcases List.mem_append.1 ht with ht | ht
      · obtain ⟨d, rfl, hd⟩ := Event.mem_discarded ht
        exact ⟨d, List.mem_cons_self _ _, hd⟩
      · obtain ⟨d, hd, hd'⟩ := hdiscarded t ht
        exact ⟨d, List.mem_cons_of_mem _ hd, hd'⟩

/-- **Regular tasks are conserved.** Take any run of the handlers from the initial state. No
task is lost: the regular tasks the run submitted or scheduled are, each as often as it came,
the tasks of the entries created for them (by `queue_waiting_task` and `queue_dispatch_task`,
each at a new address) and the tasks handed to the global scheduler, each of these with its
own `WAITING` row among the run's calls. The entries created are, at the end and each exactly
once, the entries of the waiting queue, those of the dispatch queue, the regular tasks handed
to workers, and the entries `handle_driver_removed` discarded for their own driver. So no
task is handed out twice. Every step, from every reachable state, creates the entry of its
task unless it forwards the task, and moves entries only along the edges of the state
machine: waiting to dispatch only in `handle_object_available`, dispatch to waiting only in
`handle_object_removed`, to a worker only from the dispatch queue (or through it, within one
handler) and only in the handlers that end in `dispatch_tasks`. -/
theorem regular_task_conservation (s : LocalSchedulerState n) (es : List (Event n))
    (r : LocalSchedulerState n × List (Observation n))
    (hs : s.algorithmState = SchedulingAlgorithmState.init n) (h : runEvents s es = some r) :
    (∃ created discarded : List (TaskQueueEntry n), ∃ forwarded : List (TaskSpec n × Int),
      List.Perm (queuedEntries r.1.algorithmState ++ regularAssigned (traceCalls r.2) ++ discarded)
        created ∧
      (created.map TaskQueueEntry.specAddr).Nodup ∧
      List.Perm (created.map TaskQueueEntry.task ++ forwarded) (es.flatMap Event.regularTasks) ∧
      (forwarded.map waitingRow).Sublist (traceCalls r.2) ∧
      ∀ t ∈ discarded, ∃ d, Event.driverRemoved d ∈ es ∧ t.spec.driverId = d) ∧
    ((queuedEntries r.1.algorithmState ++ regularAssigned (traceCalls r.2)).map
      TaskQueueEntry.specAddr).Nodup ∧
    ∀ (s' : LocalSchedulerState n) (e : Event n) (r' : LocalSchedulerState n × List (Effect n)),
      Reachable s' → handleEvent s' e = some r' →
      (∃ C F, Placed (e.newEntries s'.nextAddress) C F r'.2 ∧
        EntryMoves s'.algorithmState r'.1.algorithmState (regularAssigned r'.2)
          (e.discarded s'.algorithmState) C (∃ o, e = .objectAvailable o)
          (∃ o, e = .objectRemoved o)) ∧
      (regularAssigned r'.2 ≠ [] → e.dispatchesTasks = true) := by
  have hq : queuedEntries s.algorithmState = [] := by
    simp [queuedEntries, hs, SchedulingAlgorithmState.init]
  obtain ⟨created, discarded, forwarded, hperm, hnodup, -, htasks, hrows, hdiscarded⟩ :=
    runEvents_ledger (.init hs) h
  rw [hq, List.nil_append] at hperm hnodup
  refine ⟨⟨created, discarded, forwarded, hperm, hnodup, htasks, hrows, hdiscarded⟩, ?_,
    fun s' e r' hs' he => ?_⟩
  · exact ((hperm.map _).nodup_iff.2 hnodup).sublist ((List.sublist_append_left _ _).map _)
  · obtain ⟨⟨C, F, hC, -, hmoves⟩, hd⟩ := reachable_stepMoves hs' he
    exact ⟨⟨C, F, hC, hmoves⟩, hd⟩

/-! ## A run with a hand-out, a forward and a discard -/

/-- A regular worker. -/
def regularWorker : LocalSchedulerClient := ⟨8, nilActorId⟩

/-- A regular task of driver `2` with no argument. -/
def driverTwoTask : TaskSpec 1 := ⟨2, nilActorId, 0, [], fun _ => 0⟩

/-- A worker connects; the task on objects `3` and `4` waits, becomes runnable when both have
arrived, and runs; a task of driver `2` is placed here while the worker is busy and queued,
another submitted then goes to the global scheduler, and driver `2` leaves. -/
def ledgerEvents : List (Event 1) :=
  [.workerAvailable regularWorker (fun _ => 0) rfl, .taskScheduled twoArgTask 0 rfl,
    .objectAvailable 3, .objectAvailable 4, .taskScheduled driverTwoTask 0 rfl,
    .taskSubmitted driverTwoTask 0 rfl, .driverRemoved 2]

/-- The end of that run. -/
def ledgerRun : LocalSchedulerState 1 × List (Observation 1) :=
  (runEvents trackerNode ledgerEvents).getD (trackerNode, [])

theorem runEvents_ledgerRun : runEvents trackerNode ledgerEvents = some ledgerRun := by
  with_unfolding_all rfl

/-- The first task went to the worker from address `0`; the second, at address `2`, left
with its driver; the third was written to the task table as `WAITING`. -/
example : (queuedEntries ledgerRun.1.algorithmState).map TaskQueueEntry.specAddr = [] ∧
    (regularAssigned (traceCalls ledgerRun.2)).map TaskQueueEntry.specAddr = [0] ∧
    (traceCalls ledgerRun.2).filterMap (fun
      | .taskTableAddTask t => some t.state
      | _ => none) = [.waiting] := by
  with_unfolding_all decide

theorem regular_task_conservation_ledgerRun :
    (∃ created discarded : List (TaskQueueEntry 1), ∃ forwarded : List (TaskSpec 1 × Int),
      List.Perm (queuedEntries ledgerRun.1.algorithmState ++
        regularAssigned (traceCalls ledgerRun.2) ++ discarded) created ∧
      (created.map TaskQueueEntry.specAddr).Nodup ∧
      List.Perm (created.map TaskQueueEntry.task ++ forwarded)
        (ledgerEvents.flatMap Event.regularTasks) ∧
      (forwarded.map waitingRow).Sublist (traceCalls ledgerRun.2) ∧
      ∀ t ∈ discarded,
        ∃ d, Event.driverRemoved d ∈ ledgerEvents ∧ t.spec.driverId = d) ∧
    ((queuedEntries ledgerRun.1.algorithmState ++ regularAssigned (traceCalls ledgerRun.2)).map
      TaskQueueEntry.specAddr).Nodup ∧
    ∀ (s' : LocalSchedulerState 1) (e : Event 1) (r' : LocalSchedulerState 1 × List (Effect 1)),
      Reachable s' → handleEvent s' e = some r' →
      (∃ C F, Placed (e.newEntries s'.nextAddress) C F r'.2 ∧
        EntryMoves s'.algorithmState r'.1.algorithmState (regularAssigned r'.2)
          (e.discarded s'.algorithmState) C (∃ o, e = .objectAvailable o)
          (∃ o, e = .objectRemoved o)) ∧
      (regularAssigned r'.2 ≠ [] → e.dispatchesTasks = true) :=
  regular_task_conservation trackerNode ledgerEvents ledgerRun rfl runEvents_ledgerRun

end LocalScheduler
