import LocalScheduler.Basic
import Mathlib.Algebra.BigOperators.Group.List
import Mathlib.Tactic.Linarith
import Mathlib.Data.Fintype.Basic

/-!
# `dispatch_tasks`: assigning the dispatch queue to available workers

The main driver of the regular task path. `dispatchTasksLoop` is its `for` loop, one
recursive call per iteration; `assignTaskToWorker` is the collaborator it calls, modelled
from the spec (it debits the task's required resources).

What is proved here:

* `dispatchTasksLoop_spec` — one lemma that says what the loop does: the tasks it assigns
  are a subsequence of the queue (`Interleave`), the `k`-th goes to the `k`-th available
  worker from the back, those workers move to the executing pool in that order, and the
  resources drop by exactly the sum of what was assigned;
* `dispatchTasks_assigns_in_order` — the same for `dispatch_tasks`, with the sum bounded by
  the resources it started from: it never over-commits;
* `dispatchTasks_maximal` — when it returns, no worker is left, or no resource is left, or
  no queued task fits: a task too large to run never blocks a smaller one behind it.
-/

namespace LocalScheduler

variable {n : Nat}

/-- `l` interleaves `xs` and `ys`: `xs` is a subsequence of `l`, and `ys` is what remains of
`l`, both in the order of `l`. -/
inductive Interleave {α : Type} : List α → List α → List α → Prop
  | nil : Interleave [] [] []
  | left {a : α} {l xs ys : List α} : Interleave l xs ys → Interleave (a :: l) (a :: xs) ys
  | right {a : α} {l xs ys : List α} : Interleave l xs ys → Interleave (a :: l) xs (a :: ys)

/-- The task-and-worker pairs of the `assign_task_to_worker` calls among `calls`. -/
def assignments : List (Effect n) → List (TaskQueueEntry n × LocalSchedulerClient)
  | [] => []
  | .assignTaskToWorker task worker :: calls => (task, worker) :: assignments calls
  | _ :: calls => assignments calls

@[simp] theorem assignments_nil : assignments ([] : List (Effect n)) = [] := rfl

@[simp] theorem assignments_cons_assign (task : TaskQueueEntry n) (worker : LocalSchedulerClient)
    (calls : List (Effect n)) :
    assignments (.assignTaskToWorker task worker :: calls) = (task, worker) :: assignments calls :=
  rfl

@[simp] theorem assignments_startWorker (a : ActorID) (calls : List (Effect n)) :
    assignments (.startWorker a :: calls) = assignments calls := rfl

@[simp] theorem assignments_plasmaFetch (ids : List ObjectID) (calls : List (Effect n)) :
    assignments (.plasmaFetch ids :: calls) = assignments calls := rfl

@[simp] theorem assignments_taskTableAddTask (task : Task n) (calls : List (Effect n)) :
    assignments (.taskTableAddTask task :: calls) = assignments calls := rfl

@[simp] theorem assignments_taskTableUpdate (task : Task n) (calls : List (Effect n)) :
    assignments (.taskTableUpdate task :: calls) = assignments calls := rfl

@[simp] theorem assignments_reconstructObject (o : ObjectID) (calls : List (Effect n)) :
    assignments (.reconstructObject o :: calls) = assignments calls := rfl

@[simp] theorem assignments_append (calls calls' : List (Effect n)) :
    assignments (calls ++ calls') = assignments calls ++ assignments calls' := by
  induction calls with
  | nil => rfl
  | cons c calls ih => cases c <;> simp [ih]

/-- Each pair of `assignments calls` is the task and worker of one call among `calls`. -/
theorem mem_of_mem_assignments {p : TaskQueueEntry n × LocalSchedulerClient} :
    ∀ {calls : List (Effect n)}, p ∈ assignments calls → .assignTaskToWorker p.1 p.2 ∈ calls
  | [], h => absurd h (List.not_mem_nil _)
  | .assignTaskToWorker _ _ :: _, h => by
    rcases List.mem_cons.1 h with rfl | h
    · exact List.mem_cons_self _ _
    · exact List.mem_cons_of_mem _ (mem_of_mem_assignments h)
  | .startWorker _ :: _, h | .plasmaFetch _ :: _, h | .taskTableAddTask _ :: _, h
  | .taskTableUpdate _ :: _, h | .reconstructObject _ :: _, h =>
    List.mem_cons_of_mem _ (mem_of_mem_assignments h)

/-- The sum of component `i` of the required resources of `tasks`. -/
def requiredSum (tasks : List (TaskQueueEntry n)) (i : Fin n) : ℚ :=
  (tasks.map fun t => t.spec.requiredResources i).sum

@[simp] theorem requiredSum_nil (i : Fin n) : requiredSum ([] : List (TaskQueueEntry n)) i = 0 :=
  rfl

@[simp] theorem requiredSum_cons (t : TaskQueueEntry n) (ts : List (TaskQueueEntry n)) (i : Fin n) :
    requiredSum (t :: ts) i = t.spec.requiredResources i + requiredSum ts i := by
  simp [requiredSum]

@[simp] theorem requiredSum_append (ts ts' : List (TaskQueueEntry n)) (i : Fin n) :
    requiredSum (ts ++ ts') i = requiredSum ts i + requiredSum ts' i := by
  simp [requiredSum]

/-- Modelled from the spec: `assign_task_to_worker` (`local_scheduler.cc`, not under `src/`)
hands the task to the worker and debits `dynamic_resources` by the task's required
resources. -/
def assignTaskToWorker (s : LocalSchedulerState n) (task : TaskQueueEntry n)
    (worker : LocalSchedulerClient) : LocalSchedulerState n × Effect n :=
  ({ s with dynamicResources := fun i => s.dynamicResources i - task.spec.requiredResources i },
    .assignTaskToWorker task worker)

/-- Some resource is left: `dynamic_resources[i] > 0` for some `i`. -/
def resourcesAvailable (r : Fin n → ℚ) : Bool :=
  decide (∃ i, 0 < r i)

/-- The task fits: `TaskSpec_get_required_resource(spec, i) <= dynamic_resources[i]` for
every `i`. -/
def taskSatisfied (spec : TaskSpec n) (r : Fin n → ℚ) : Bool :=
  decide (∀ i, spec.requiredResources i ≤ r i)

/-- `available_workers.pop_back(); executing_workers.push_back(worker);` -/
def LocalSchedulerState.moveToExecuting (s : LocalSchedulerState n) (worker : LocalSchedulerClient) :
    LocalSchedulerState n :=
  { s with
    algorithmState.availableWorkers := s.algorithmState.availableWorkers.dropLast,
    algorithmState.executingWorkers := s.algorithmState.executingWorkers ++ [worker] }

/-- The `for` loop of `dispatch_tasks`, run on the part of the dispatch queue from the iterator
on. It returns the state, the part of that queue still queued, and the calls made.
`available_workers.back()` is the last element of `getLast?`, and popping it is `dropLast`. -/
def dispatchTasksLoop :
    List (TaskQueueEntry n) → LocalSchedulerState n →
      LocalSchedulerState n × List (TaskQueueEntry n) × List (Effect n)
  | [], s => (s, [], [])
  | task :: rest, s =>
    match s.algorithmState.availableWorkers.getLast? with
    | none => (s, task :: rest, if s.numChildPids = 0 then [.startWorker nilActorId] else [])
    | some worker =>
      if !resourcesAvailable s.dynamicResources then (s, task :: rest, [])
      else if !taskSatisfied task.spec s.dynamicResources then
        let r := dispatchTasksLoop rest s
        (r.1, task :: r.2.1, r.2.2)
      else
        let r := dispatchTasksLoop rest ((assignTaskToWorker s task worker).1.moveToExecuting worker)
        (r.1, r.2.1, (assignTaskToWorker s task worker).2 :: r.2.2)

/-- `dispatch_tasks`: run the loop over the whole dispatch queue and keep what it left. -/
def dispatchTasks (s : LocalSchedulerState n) : LocalSchedulerState n × List (Effect n) :=
  let r := dispatchTasksLoop s.algorithmState.dispatchTaskQueue s
  ({ r.1 with algorithmState.dispatchTaskQueue := r.2.1 }, r.2.2)

/-! ## Interleavings -/

namespace Interleave

variable {α : Type}

theorem right_self : ∀ l : List α, Interleave l [] l
  | [] => .nil
  | _ :: l => .right (right_self l)

theorem mem_left {l xs ys : List α} {a : α} (h : Interleave l xs ys) (ha : a ∈ xs) : a ∈ l := by
  induction h with
  | nil => exact ha
  | left _ ih =>
    rcases List.mem_cons.1 ha with rfl | ha
    · exact List.mem_cons_self _ _
    · exact List.mem_cons_of_mem _ (ih ha)
  | right _ ih => exact List.mem_cons_of_mem _ (ih ha)

theorem mem_right {l xs ys : List α} {a : α} (h : Interleave l xs ys) (ha : a ∈ ys) : a ∈ l := by
  induction h with
  | nil => exact ha
  | left _ ih => exact List.mem_cons_of_mem _ (ih ha)
  | right _ ih =>
    rcases List.mem_cons.1 ha with rfl | ha
    · exact List.mem_cons_self _ _
    · exact List.mem_cons_of_mem _ (ih ha)

end Interleave

/-! ## What the loop does -/

/-- The outcome `r` of the loop over the queue part `q`, started with resources `R`, available
workers `W` and executing workers `E`, having assigned the tasks `assigned`. -/
structure LoopResult (q : List (TaskQueueEntry n)) (R : Fin n → ℚ) (W E : List LocalSchedulerClient)
    (assigned : List (TaskQueueEntry n))
    (r : LocalSchedulerState n × List (TaskQueueEntry n) × List (Effect n)) : Prop where
  interleave : Interleave q assigned r.2.1
  length_le : assigned.length ≤ W.length
  assignments_eq : assignments r.2.2 = assigned.zip (W.reverse.take assigned.length)
  available : r.1.algorithmState.availableWorkers = W.take (W.length - assigned.length)
  executing : r.1.algorithmState.executingWorkers = E ++ W.reverse.take assigned.length
  resources : ∀ i, r.1.dynamicResources i = R i - requiredSum assigned i
  fits : (∀ i, 0 ≤ R i) → ∀ i, requiredSum assigned i ≤ R i

namespace LoopResult

variable {q : List (TaskQueueEntry n)} {R : Fin n → ℚ} {W E : List LocalSchedulerClient}
  {assigned : List (TaskQueueEntry n)}

/-- An iteration that returns at once leaves everything as it was. -/
theorem stop {s : LocalSchedulerState n} {calls : List (Effect n)} (hcalls : assignments calls = []) :
    LoopResult q s.dynamicResources s.algorithmState.availableWorkers
      s.algorithmState.executingWorkers [] (s, q, calls) where
  interleave := Interleave.right_self q
  length_le := Nat.zero_le _
  assignments_eq := by simp [hcalls]
  available := by simp
  executing := by simp
  resources := by simp
  fits := fun h => by simpa using h

/-- A skipped task stays queued; nothing else changes. -/
theorem skip {task : TaskQueueEntry n}
    {r : LocalSchedulerState n × List (TaskQueueEntry n) × List (Effect n)}
    (h : LoopResult q R W E assigned r) :
    LoopResult (task :: q) R W E assigned (r.1, task :: r.2.1, r.2.2) :=
  ⟨h.interleave.right, h.length_le, h.assignments_eq, h.available, h.executing, h.resources,
    h.fits⟩

/-- An assigned task goes to the last available worker, which moves to the executing pool,
and its resources are debited. -/
theorem assign {task : TaskQueueEntry n} {worker : LocalSchedulerClient}
    {r : LocalSchedulerState n × List (TaskQueueEntry n) × List (Effect n)}
    (hfit : ∀ i, task.spec.requiredResources i ≤ R i)
    (h : LoopResult q (fun i => R i - task.spec.requiredResources i) W (E ++ [worker]) assigned r) :
    LoopResult (task :: q) R (W ++ [worker]) E (task :: assigned)
      (r.1, r.2.1, .assignTaskToWorker task worker :: r.2.2) where
  interleave := h.interleave.left
  length_le := by simpa using h.length_le
  assignments_eq := by simp [h.assignments_eq]
  available := by
    rw [h.available, List.take_append_of_le_length (by simp)]
    simp
  executing := by simp [h.executing]
  resources := fun i => by rw [h.resources i, requiredSum_cons, sub_sub]
  fits := fun hR i => by
    have := h.fits (fun j => sub_nonneg.2 (hfit j)) i
    rw [requiredSum_cons]
    linarith

end LoopResult

/-- The spec of the loop: every run of it is described by `LoopResult`. -/
theorem dispatchTasksLoop_spec :
    ∀ (q : List (TaskQueueEntry n)) (s : LocalSchedulerState n),
      ∃ assigned, LoopResult q s.dynamicResources s.algorithmState.availableWorkers
        s.algorithmState.executingWorkers assigned (dispatchTasksLoop q s)
  | [], s => ⟨[], LoopResult.stop rfl⟩
  | task :: rest, s => by
    unfold dispatchTasksLoop
    cases hw : s.algorithmState.availableWorkers.getLast? with
    | none => exact ⟨[], LoopResult.stop (by split <;> rfl)⟩
    | some worker =>
      obtain ⟨pre, hpre⟩ := List.getLast?_eq_some_iff.1 hw
      simp only
      split
      · exact ⟨[], LoopResult.stop rfl⟩
      split
      · obtain ⟨a, h⟩ := dispatchTasksLoop_spec rest s
        exact ⟨a, h.skip⟩
      · rename_i _ hfit
        simp only [taskSatisfied, Bool.not_eq_true', decide_eq_false_iff_not, not_not] at hfit
        obtain ⟨a, h⟩ :=
          dispatchTasksLoop_spec rest ((assignTaskToWorker s task worker).1.moveToExecuting worker)
        rw [hpre]
        refine ⟨task :: a, LoopResult.assign hfit ?_⟩
        simpa [LocalSchedulerState.moveToExecuting, assignTaskToWorker, hpre] using h

/-- The loop changes nothing but the resources and the two worker pools. -/
theorem dispatchTasksLoop_frame :
    ∀ (q : List (TaskQueueEntry n)) (s : LocalSchedulerState n), ∃ R W E,
      (dispatchTasksLoop q s).1 = { s with
        dynamicResources := R, algorithmState.availableWorkers := W,
        algorithmState.executingWorkers := E }
  | [], s => ⟨_, _, _, rfl⟩
  | task :: rest, s => by
    unfold dispatchTasksLoop
    split
    · exact ⟨_, _, _, rfl⟩
    · split
      · exact ⟨_, _, _, rfl⟩
      split
      · exact dispatchTasksLoop_frame rest s
      · obtain ⟨R, W, E, h⟩ := dispatchTasksLoop_frame rest
          ((assignTaskToWorker s task _).1.moveToExecuting _)
        exact ⟨R, W, E, h⟩

/-! ## `dispatch_tasks` -/

/-- `dispatch_tasks` changes nothing but the resources, the two worker pools and the dispatch
queue. -/
theorem dispatchTasks_frame (s : LocalSchedulerState n) :
    (dispatchTasks s).1 = { s with
      dynamicResources := (dispatchTasks s).1.dynamicResources,
      algorithmState.availableWorkers := (dispatchTasks s).1.algorithmState.availableWorkers,
      algorithmState.executingWorkers := (dispatchTasks s).1.algorithmState.executingWorkers,
      algorithmState.dispatchTaskQueue := (dispatchTasks s).1.algorithmState.dispatchTaskQueue } := by
  obtain ⟨R, W, E, h⟩ := dispatchTasksLoop_frame s.algorithmState.dispatchTaskQueue s
  unfold dispatchTasks
  simp only [h]

section DispatchTasksFrame

variable (s : LocalSchedulerState n)

@[simp] theorem dispatchTasks_waitingTaskQueue :
    (dispatchTasks s).1.algorithmState.waitingTaskQueue = s.algorithmState.waitingTaskQueue := by
  rw [dispatchTasks_frame]

@[simp] theorem dispatchTasks_localObjects :
    (dispatchTasks s).1.algorithmState.localObjects = s.algorithmState.localObjects := by
  rw [dispatchTasks_frame]

@[simp] theorem dispatchTasks_remoteObjects :
    (dispatchTasks s).1.algorithmState.remoteObjects = s.algorithmState.remoteObjects := by
  rw [dispatchTasks_frame]

@[simp] theorem dispatchTasks_blockedWorkers :
    (dispatchTasks s).1.algorithmState.blockedWorkers = s.algorithmState.blockedWorkers := by
  rw [dispatchTasks_frame]

@[simp] theorem dispatchTasks_localActorInfos :
    (dispatchTasks s).1.algorithmState.localActorInfos = s.algorithmState.localActorInfos := by
  rw [dispatchTasks_frame]

@[simp] theorem dispatchTasks_cachedSubmittedActorTasks :
    (dispatchTasks s).1.algorithmState.cachedSubmittedActorTasks =
      s.algorithmState.cachedSubmittedActorTasks := by
  rw [dispatchTasks_frame]

@[simp] theorem dispatchTasks_cachedSubmittedActorTaskSizes :
    (dispatchTasks s).1.algorithmState.cachedSubmittedActorTaskSizes =
      s.algorithmState.cachedSubmittedActorTaskSizes := by
  rw [dispatchTasks_frame]

@[simp] theorem dispatchTasks_nextAddress : (dispatchTasks s).1.nextAddress = s.nextAddress := by
  rw [dispatchTasks_frame]

@[simp] theorem dispatchTasks_actorMapping : (dispatchTasks s).1.actorMapping = s.actorMapping := by
  rw [dispatchTasks_frame]

@[simp] theorem dispatchTasks_db : (dispatchTasks s).1.db = s.db := by
  rw [dispatchTasks_frame]

/-- With no available worker, `dispatch_tasks` hands nothing out and changes nothing; its only
call is a request for a worker. -/
theorem dispatchTasks_of_availableWorkers_nil (h : s.algorithmState.availableWorkers = []) :
    (dispatchTasks s).1 = s ∧ ∀ e ∈ (dispatchTasks s).2, e = .startWorker nilActorId := by
  unfold dispatchTasks
  cases hD : s.algorithmState.dispatchTaskQueue with
  | nil => exact ⟨by simp only [dispatchTasksLoop, ← hD], List.forall_mem_nil _⟩
  | cons t rest =>
    have hloop : dispatchTasksLoop (t :: rest) s =
        (s, t :: rest, if s.numChildPids = 0 then [.startWorker nilActorId] else []) := by
      simp only [dispatchTasksLoop, h, List.getLast?_nil]
    simp only [hloop]
    refine ⟨by simp only [← hD], fun e he => ?_⟩
    split at he
    · exact List.mem_singleton.1 he
    · exact absurd he (List.not_mem_nil _)

end DispatchTasksFrame

/-- The workers `dispatch_tasks` hands tasks to, in order, are the back of the available pool
taken from the last worker on; the pool keeps the workers in front of them, and they go to
the back of the executing pool. -/
theorem dispatchTasks_workers (s : LocalSchedulerState n) :
    ∃ m, (assignments (dispatchTasks s).2).map Prod.snd =
        (s.algorithmState.availableWorkers.drop m).reverse ∧
      (dispatchTasks s).1.algorithmState.availableWorkers =
        s.algorithmState.availableWorkers.take m ∧
      (dispatchTasks s).1.algorithmState.executingWorkers =
        s.algorithmState.executingWorkers ++ (s.algorithmState.availableWorkers.drop m).reverse := by
  obtain ⟨a, h⟩ := dispatchTasksLoop_spec s.algorithmState.dispatchTaskQueue s
  have hcalls : assignments (dispatchTasks s).2 = _ := h.assignments_eq
  have hav : (dispatchTasks s).1.algorithmState.availableWorkers = _ := h.available
  have hex : (dispatchTasks s).1.algorithmState.executingWorkers = _ := h.executing
  refine ⟨_, ?_, hav, by rw [hex, List.take_reverse]⟩
  rw [hcalls, List.map_snd_zip _ _ (by simp), List.take_reverse]

/-- `dispatch_tasks` only takes tasks off the dispatch queue. -/
theorem mem_of_mem_dispatchTasks {s : LocalSchedulerState n} {t : TaskQueueEntry n}
    (ht : t ∈ (dispatchTasks s).1.algorithmState.dispatchTaskQueue) :
    t ∈ s.algorithmState.dispatchTaskQueue := by
  obtain ⟨a, h⟩ := dispatchTasksLoop_spec s.algorithmState.dispatchTaskQueue s
  exact h.interleave.mem_right ht

/-- Every worker `dispatch_tasks` hands a task to ends in the executing pool. -/
theorem dispatchTasks_assigned_executing (s : LocalSchedulerState n) {w : LocalSchedulerClient}
    (hw : w ∈ (assignments (dispatchTasks s).2).map Prod.snd) :
    w ∈ (dispatchTasks s).1.algorithmState.executingWorkers := by
  obtain ⟨m, hcalls, -, hex⟩ := dispatchTasks_workers s
  rw [hex]
  exact List.mem_append_right _ (hcalls ▸ hw)

/-- **`dispatch_tasks` never over-commits and keeps the queue's order.** The tasks it assigns
form a subsequence of the dispatch queue `Q`, assigned in queue order; the `k`-th goes to the
`k`-th available worker counted from the back of `W`, which keeps its first `|W| - k`
workers; the assigned workers are appended to the executing ones; their required resources
sum to at most the resources `R` it started with, which are debited by exactly that sum and
stay non-negative; and the queue keeps the other tasks in their order. -/
theorem dispatchTasks_assigns_in_order (s : LocalSchedulerState n)
    (hR : ∀ i, 0 ≤ s.dynamicResources i) :
    ∃ assigned : List (TaskQueueEntry n),
      Interleave s.algorithmState.dispatchTaskQueue assigned
        (dispatchTasks s).1.algorithmState.dispatchTaskQueue ∧
      assigned.length ≤ s.algorithmState.availableWorkers.length ∧
      assignments (dispatchTasks s).2 =
        assigned.zip (s.algorithmState.availableWorkers.reverse.take assigned.length) ∧
      (dispatchTasks s).1.algorithmState.availableWorkers =
        s.algorithmState.availableWorkers.take
          (s.algorithmState.availableWorkers.length - assigned.length) ∧
      (dispatchTasks s).1.algorithmState.executingWorkers =
        s.algorithmState.executingWorkers ++
          s.algorithmState.availableWorkers.reverse.take assigned.length ∧
      (∀ i, requiredSum assigned i ≤ s.dynamicResources i) ∧
      (∀ i, (dispatchTasks s).1.dynamicResources i = s.dynamicResources i - requiredSum assigned i) ∧
      ∀ i, 0 ≤ (dispatchTasks s).1.dynamicResources i := by
  obtain ⟨a, h⟩ := dispatchTasksLoop_spec s.algorithmState.dispatchTaskQueue s

  refine ⟨a, h.interleave, h.length_le, h.assignments_eq, h.available, h.executing, h.fits hR,
    h.resources, fun i => ?_⟩
  have := h.fits hR i
  show 0 ≤ (dispatchTasksLoop _ s).1.dynamicResources i
  rw [h.resources i]
  linarith

theorem requiredSum_nonneg {tasks : List (TaskQueueEntry n)} {i : Fin n}
    (h : ∀ t ∈ tasks, 0 ≤ t.spec.requiredResources i) : 0 ≤ requiredSum tasks i := by
  induction tasks with
  | nil => simp
  | cons t ts ih =>
    rw [requiredSum_cons]
    exact add_nonneg (h t (List.mem_cons_self _ _)) (ih fun u hu => h u (List.mem_cons_of_mem _ hu))

/-- As long as the tasks it assigns need no negative amount, the loop never gives resources
back. -/
theorem dispatchTasksLoop_resources_le {q : List (TaskQueueEntry n)} (s : LocalSchedulerState n)
    (hq : ∀ p ∈ assignments (dispatchTasksLoop q s).2.2, ∀ i, 0 ≤ p.1.spec.requiredResources i)
    (i : Fin n) : (dispatchTasksLoop q s).1.dynamicResources i ≤ s.dynamicResources i := by
  obtain ⟨a, h⟩ := dispatchTasksLoop_spec q s
  have ha : (assignments (dispatchTasksLoop q s).2.2).map Prod.fst = a := by
    rw [h.assignments_eq, List.map_fst_zip _ _ (by simp [h.length_le])]
  have : 0 ≤ requiredSum a i := requiredSum_nonneg fun t ht => by
    obtain ⟨p, hp, rfl⟩ := List.mem_map.1 (ha ▸ ht)
    exact hq p hp i
  rw [h.resources i]
  linarith

/-- The loop stops only when no worker is left, or no resource is left, or no task it kept
fits: a skipped task did not fit, and, as long as the tasks it assigns need no negative amount,
resources only shrink afterwards. -/
theorem dispatchTasksLoop_stops :
    ∀ (q : List (TaskQueueEntry n)) (s : LocalSchedulerState n),
      (∀ p ∈ assignments (dispatchTasksLoop q s).2.2, ∀ i, 0 ≤ p.1.spec.requiredResources i) →
      (dispatchTasksLoop q s).1.algorithmState.availableWorkers = [] ∨
        (∀ i, (dispatchTasksLoop q s).1.dynamicResources i ≤ 0) ∨
        ∀ t ∈ (dispatchTasksLoop q s).2.1,
          ¬ ∀ i, t.spec.requiredResources i ≤ (dispatchTasksLoop q s).1.dynamicResources i
  | [], _, _ => by simp [dispatchTasksLoop]
  | task :: rest, s, hq => by
    unfold dispatchTasksLoop at hq ⊢
    cases hw : s.algorithmState.availableWorkers.getLast? with
    | none => exact .inl (List.getLast?_eq_none_iff.1 hw)
    | some worker =>
      simp only [hw] at hq ⊢
      by_cases hres : resourcesAvailable s.dynamicResources = false
      · -- no resource is left
        simp only [hres, Bool.not_false, if_true] at hq ⊢
        simp only [resourcesAvailable, decide_eq_false_iff_not, not_exists, not_lt] at hres
        exact .inr (.inl hres)
      simp only [Bool.not_eq_false] at hres
      by_cases hfit : taskSatisfied task.spec s.dynamicResources = false
      · -- the task is skipped: it did not fit then, so it does not fit now
        simp only [hres, hfit, Bool.not_true, Bool.not_false, if_true, if_false] at hq ⊢
        simp only [taskSatisfied, decide_eq_false_iff_not] at hfit
        rcases dispatchTasksLoop_stops rest s hq with h | h | h
        · exact .inl h
        · exact .inr (.inl h)
        · refine .inr (.inr fun t ht hle => ?_)
          rcases List.mem_cons.1 ht with rfl | ht
          · exact hfit fun i => (hle i).trans (dispatchTasksLoop_resources_le s hq i)
          · exact h t ht hle
      · -- the task is assigned: the rest of the loop starts with what is left
        simp only [Bool.not_eq_false] at hfit
        simp only [hres, hfit, Bool.not_true, Bool.false_eq_true, if_false] at hq ⊢
        exact dispatchTasksLoop_stops rest _ fun p hp => hq p (List.mem_cons_of_mem _ hp)

/-- From non-negative resources, and tasks that need no negative amount, the loop stops only
when no worker is left, or every resource is used up, or no task it kept fits. -/
theorem dispatchTasksLoop_maximal (q : List (TaskQueueEntry n)) (s : LocalSchedulerState n)
    (hR : ∀ i, 0 ≤ s.dynamicResources i) (hq : ∀ t ∈ q, ∀ i, 0 ≤ t.spec.requiredResources i) :
    (dispatchTasksLoop q s).1.algorithmState.availableWorkers = [] ∨
      (∀ i, (dispatchTasksLoop q s).1.dynamicResources i = 0) ∨
      ∀ t ∈ (dispatchTasksLoop q s).2.1,
        ¬ ∀ i, t.spec.requiredResources i ≤ (dispatchTasksLoop q s).1.dynamicResources i := by
  obtain ⟨a, h⟩ := dispatchTasksLoop_spec q s
  have hassigned : ∀ p ∈ assignments (dispatchTasksLoop q s).2.2,
      ∀ i, 0 ≤ p.1.spec.requiredResources i := by
    rw [h.assignments_eq]
    rintro ⟨t, w⟩ hp
    exact hq t (h.interleave.mem_left (List.of_mem_zip hp).1)
  rcases dispatchTasksLoop_stops q s hassigned with h' | h' | h'
  · exact .inl h'
  · refine .inr (.inl fun i => le_antisymm (h' i) ?_)
    have := h.fits hR i
    rw [h.resources i]
    linarith
  · exact .inr (.inr h')

/-- **`dispatch_tasks` is maximal.** When it returns, either no worker is available, or every
resource is used up, or no task left in the dispatch queue fits in what is left: a task too
large to run is skipped, never blocking a fitting task behind it. -/
theorem dispatchTasks_maximal (s : LocalSchedulerState n) (hR : ∀ i, 0 ≤ s.dynamicResources i)
    (hq : ∀ t ∈ s.algorithmState.dispatchTaskQueue, ∀ i, 0 ≤ t.spec.requiredResources i) :
    (dispatchTasks s).1.algorithmState.availableWorkers = [] ∨
      (∀ i, (dispatchTasks s).1.dynamicResources i = 0) ∨
      ∀ t ∈ (dispatchTasks s).1.algorithmState.dispatchTaskQueue,
        ¬ ∀ i, t.spec.requiredResources i ≤ (dispatchTasks s).1.dynamicResources i :=
  dispatchTasksLoop_maximal _ s hR hq

/-- What `dispatch_tasks` leaves behind when the tasks it assigns need no negative amount: no
worker, no resource, or no queued task that fits. -/
theorem dispatchTasks_stops (s : LocalSchedulerState n)
    (hq : ∀ p ∈ assignments (dispatchTasks s).2, ∀ i, 0 ≤ p.1.spec.requiredResources i) :
    (dispatchTasks s).1.algorithmState.availableWorkers = [] ∨
      (∀ i, (dispatchTasks s).1.dynamicResources i ≤ 0) ∨
      ∀ t ∈ (dispatchTasks s).1.algorithmState.dispatchTaskQueue,
        ¬ ∀ i, t.spec.requiredResources i ≤ (dispatchTasks s).1.dynamicResources i :=
  dispatchTasksLoop_stops _ s hq

/-- A pass in which nothing can be handed out, because no worker is available, no resource
is left or no queued task fits, changes nothing and hands nothing out. -/
theorem dispatchTasksLoop_quiet :
    ∀ (q : List (TaskQueueEntry n)) (s : LocalSchedulerState n),
      (s.algorithmState.availableWorkers = [] ∨ (∀ i, s.dynamicResources i ≤ 0) ∨
        ∀ t ∈ q, ¬ ∀ i, t.spec.requiredResources i ≤ s.dynamicResources i) →
      (dispatchTasksLoop q s).1 = s ∧ (dispatchTasksLoop q s).2.1 = q ∧
        assignments (dispatchTasksLoop q s).2.2 = []
  | [], _, _ => ⟨rfl, rfl, rfl⟩
  | task :: rest, s, h => by
    unfold dispatchTasksLoop
    cases hw : s.algorithmState.availableWorkers.getLast? with
    | none =>
      simp only [hw, true_and]
      split <;> rfl
    | some worker =>
      simp only [hw]
      split
      · exact ⟨rfl, rfl, rfl⟩
      · rename_i hres
        split
        · obtain ⟨h₁, h₂, h₃⟩ := dispatchTasksLoop_quiet rest s
            (h.imp_right (Or.imp_right fun h t ht => h t (List.mem_cons_of_mem _ ht)))
          exact ⟨h₁, congrArg _ h₂, h₃⟩
        · rename_i hfit
          simp only [resourcesAvailable, Bool.not_eq_true', decide_eq_false_iff_not, not_not] at hres
          simp only [taskSatisfied, Bool.not_eq_true', decide_eq_false_iff_not, not_not] at hfit
          rcases h with h | h | h
          · simp [h] at hw
          · obtain ⟨i, hi⟩ := hres
            exact absurd (h i) (not_le.2 hi)
          · exact absurd hfit (h task (List.mem_cons_self _ _))

theorem dispatchTasks_quiet {s : LocalSchedulerState n}
    (h : s.algorithmState.availableWorkers = [] ∨ (∀ i, s.dynamicResources i ≤ 0) ∨
      ∀ t ∈ s.algorithmState.dispatchTaskQueue,
        ¬ ∀ i, t.spec.requiredResources i ≤ s.dynamicResources i) :
    (dispatchTasks s).1 = s ∧ assignments (dispatchTasks s).2 = [] := by
  obtain ⟨h₁, h₂, h₃⟩ := dispatchTasksLoop_quiet _ s h
  refine ⟨?_, h₃⟩
  simp only [dispatchTasks, h₁, h₂]

/-- Scenario S2 of the spec: one CPU left, a task needing two CPUs queued ahead of a task
needing one, and one available worker. -/
def scenarioS2 : LocalSchedulerState 1 where
  algorithmState := { SchedulingAlgorithmState.init 1 with
    dispatchTaskQueue :=
      [⟨0, ⟨0, nilActorId, 0, [], fun _ => 2⟩, 0⟩, ⟨1, ⟨0, nilActorId, 0, [], fun _ => 1⟩, 0⟩],
    availableWorkers := [⟨7, nilActorId⟩] }
  db := none
  globalSchedulerExists := false
  actorMapping := fun _ => none
  staticResources := fun _ => 2
  dynamicResources := fun _ => 1
  plasmaConnected := true
  numChildPids := 1
  nextAddress := 2

theorem dispatchTasks_assigns_in_order_scenarioS2 :
    (∀ i, 0 ≤ scenarioS2.dynamicResources i) ∧
      ∃ assigned : List (TaskQueueEntry 1),
        Interleave scenarioS2.algorithmState.dispatchTaskQueue assigned
          (dispatchTasks scenarioS2).1.algorithmState.dispatchTaskQueue ∧
        assigned.length ≤ scenarioS2.algorithmState.availableWorkers.length ∧
        assignments (dispatchTasks scenarioS2).2 =
          assigned.zip (scenarioS2.algorithmState.availableWorkers.reverse.take assigned.length) ∧
        (dispatchTasks scenarioS2).1.algorithmState.availableWorkers =
          scenarioS2.algorithmState.availableWorkers.take
            (scenarioS2.algorithmState.availableWorkers.length - assigned.length) ∧
        (dispatchTasks scenarioS2).1.algorithmState.executingWorkers =
          scenarioS2.algorithmState.executingWorkers ++
            scenarioS2.algorithmState.availableWorkers.reverse.take assigned.length ∧
        (∀ i, requiredSum assigned i ≤ scenarioS2.dynamicResources i) ∧
        (∀ i, (dispatchTasks scenarioS2).1.dynamicResources i =
          scenarioS2.dynamicResources i - requiredSum assigned i) ∧
        ∀ i, 0 ≤ (dispatchTasks scenarioS2).1.dynamicResources i :=
  ⟨by decide, dispatchTasks_assigns_in_order scenarioS2 (by decide)⟩

theorem dispatchTasks_maximal_scenarioS2 :
    (∀ i, 0 ≤ scenarioS2.dynamicResources i) ∧
      (∀ t ∈ scenarioS2.algorithmState.dispatchTaskQueue, ∀ i, 0 ≤ t.spec.requiredResources i) ∧
      ((dispatchTasks scenarioS2).1.algorithmState.availableWorkers = [] ∨
        (∀ i, (dispatchTasks scenarioS2).1.dynamicResources i = 0) ∨
        ∀ t ∈ (dispatchTasks scenarioS2).1.algorithmState.dispatchTaskQueue,
          ¬ ∀ i, t.spec.requiredResources i ≤ (dispatchTasks scenarioS2).1.dynamicResources i) :=
  ⟨by decide, by decide, dispatchTasks_maximal scenarioS2 (by decide) (by decide)⟩

example : (dispatchTasks scenarioS2).1.algorithmState.dispatchTaskQueue.map (·.specAddr) = [0] := by
  decide

example : (dispatchTasks scenarioS2).1.algorithmState.executingWorkers = [⟨7, nilActorId⟩] := by
  decide

/-- **One pass of `dispatch_tasks` is enough.** When the tasks it assigns need no negative
amount, calling it again at once changes nothing and hands nothing out: the handlers that call
it twice in a row, or once more at their end, lose nothing by it and gain nothing. -/
theorem dispatchTasks_idempotent (s : LocalSchedulerState n)
    (hq : ∀ p ∈ assignments (dispatchTasks s).2, ∀ i, 0 ≤ p.1.spec.requiredResources i) :
    (dispatchTasks (dispatchTasks s).1).1 = (dispatchTasks s).1 ∧
      assignments (dispatchTasks (dispatchTasks s).1).2 = [] :=
  dispatchTasks_quiet (dispatchTasks_stops s hq)

theorem dispatchTasks_idempotent_scenarioS2 :
    (∀ p ∈ assignments (dispatchTasks scenarioS2).2, ∀ i, 0 ≤ p.1.spec.requiredResources i) ∧
      (dispatchTasks (dispatchTasks scenarioS2).1).1 = (dispatchTasks scenarioS2).1 ∧
      assignments (dispatchTasks (dispatchTasks scenarioS2).1).2 = [] :=
  have hq : ∀ p ∈ assignments (dispatchTasks scenarioS2).2, ∀ i, 0 ≤ p.1.spec.requiredResources i := by
    decide
  ⟨hq, dispatchTasks_idempotent scenarioS2 hq⟩

end LocalScheduler
