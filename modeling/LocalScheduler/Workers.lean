import LocalScheduler.Dispatch
import Mathlib.Data.List.Perm.Basic
import Mathlib.Data.List.Nodup

/-!
# The worker pool

`remove_worker_from_vector` and the four handlers that move a regular worker between the
available, executing and blocked pools. The pools are `std::vector`s; removal swaps the
worker with the back and pops it, so it reorders the vector: `removeWorkerFromVector_perm`
says the result is still the vector with the worker erased, up to order, which is all the
pool invariant needs.
-/

namespace LocalScheduler

open LocalSchedulerState

variable {n : Nat}

/-- `worker_in_vector`. -/
def workerInVector (v : List LocalSchedulerClient) (worker : LocalSchedulerClient) : Bool :=
  decide (worker ∈ v)

/-- `remove_worker_from_vector`: find the worker, swap it with the back of the vector, pop
the back, and say whether it was there. -/
def removeWorkerFromVector (v : List LocalSchedulerClient) (worker : LocalSchedulerClient) :
    List LocalSchedulerClient × Bool :=
  if worker ∈ v then ((v.set (v.indexOf worker) (v.getLastD worker)).dropLast, true)
  else (v, false)

/-- Swapping position `i` with the back and popping the back erases position `i`, up to
order. -/
theorem set_getLastD_dropLast_perm {α : Type} (v : List α) (x : α) {i : Nat}
    (hi : i < v.length) : (v.set i (v.getLastD x)).dropLast.Perm (v.eraseIdx i) := by
  rcases List.eq_nil_or_concat v with rfl | ⟨pre, z, rfl⟩
  · simp at hi
  simp only [List.concat_eq_append, List.length_append, List.length_singleton] at hi ⊢
  rw [List.getLastD_eq_getLast?, List.getLast?_concat, Option.getD_some]
  rcases Nat.lt_succ_iff_lt_or_eq.1 hi with hi | rfl
  · rw [List.set_append_left _ _ hi, List.dropLast_concat,
      List.eraseIdx_append_of_lt_length hi, List.set_eq_take_append_cons_drop, if_pos hi,
      List.eraseIdx_eq_take_drop_succ]
    exact List.perm_middle.trans (List.perm_append_singleton _ _).symm
  · simp [List.eraseIdx_eq_take_drop_succ]

@[simp] theorem removeWorkerFromVector_snd (v : List LocalSchedulerClient)
    (worker : LocalSchedulerClient) : (removeWorkerFromVector v worker).2 = decide (worker ∈ v) := by
  unfold removeWorkerFromVector
  split <;> simp_all

/-- Removal is erasure, up to the order of the vector. -/
theorem removeWorkerFromVector_perm (v : List LocalSchedulerClient) (worker : LocalSchedulerClient) :
    (removeWorkerFromVector v worker).1.Perm (v.erase worker) := by
  unfold removeWorkerFromVector
  split
  · rename_i h
    have := set_getLastD_dropLast_perm v worker (List.indexOf_lt_length.2 h)
    rwa [List.eraseIdx_indexOf_eq_erase] at this
  · rename_i h
    rw [List.erase_of_not_mem h]

theorem mem_removeWorkerFromVector {v : List LocalSchedulerClient} (hv : v.Nodup)
    {worker w : LocalSchedulerClient} :
    w ∈ (removeWorkerFromVector v worker).1 ↔ w ≠ worker ∧ w ∈ v :=
  (removeWorkerFromVector_perm v worker).mem_iff.trans (hv.mem_erase_iff)

theorem mem_of_mem_removeWorkerFromVector {v : List LocalSchedulerClient}
    {worker w : LocalSchedulerClient} (h : w ∈ (removeWorkerFromVector v worker).1) : w ∈ v :=
  List.mem_of_mem_erase ((removeWorkerFromVector_perm v worker).subset h)

theorem nodup_removeWorkerFromVector {v : List LocalSchedulerClient} (hv : v.Nodup)
    (worker : LocalSchedulerClient) : (removeWorkerFromVector v worker).1.Nodup :=
  (removeWorkerFromVector_perm v worker).nodup_iff.2 (hv.erase worker)

/-! ## The worker handlers -/

/-- `handle_worker_available`: a regular worker is free, either for the first time or because
its task finished. Its first `CHECK` (no task in progress) is on the client record, which
the caller clears before reporting the worker. -/
def handleWorkerAvailable (s : LocalSchedulerState n) (worker : LocalSchedulerClient) :
    Option (LocalSchedulerState n × List (Effect n)) := do
  check (worker ∉ s.algorithmState.availableWorkers)
  check (worker ∉ s.algorithmState.blockedWorkers)
  let executing := (removeWorkerFromVector s.algorithmState.executingWorkers worker).1
  check (worker ∉ executing)
  pure (dispatchTasks { s with
    algorithmState.executingWorkers := executing,
    algorithmState.availableWorkers := s.algorithmState.availableWorkers ++ [worker] })

/-- `handle_worker_removed`: drop a regular worker from whichever pool holds it, at most one. -/
def handleWorkerRemoved (s : LocalSchedulerState n) (worker : LocalSchedulerClient) :
    Option (LocalSchedulerState n × List (Effect n)) := do
  check (worker.actorId = nilActorId)
  let available := removeWorkerFromVector s.algorithmState.availableWorkers worker
  check (worker ∉ available.1)
  let executing := removeWorkerFromVector s.algorithmState.executingWorkers worker
  check (worker ∉ executing.1)
  let blocked := removeWorkerFromVector s.algorithmState.blockedWorkers worker
  check (worker ∉ blocked.1)
  check (available.2.toNat + executing.2.toNat + blocked.2.toNat ≤ 1)
  pure ({ s with
    algorithmState.availableWorkers := available.1,
    algorithmState.executingWorkers := executing.1,
    algorithmState.blockedWorkers := blocked.1 }, [])

/-- `handle_worker_blocked`: an executing worker waits for an object and has given its
resources back, so the dispatch queue is tried again. -/
def handleWorkerBlocked (s : LocalSchedulerState n) (worker : LocalSchedulerClient) :
    Option (LocalSchedulerState n × List (Effect n)) := do
  let executing := removeWorkerFromVector s.algorithmState.executingWorkers worker
  check (executing.2 = true)
  check (worker ∉ s.algorithmState.blockedWorkers)
  pure (dispatchTasks { s with
    algorithmState.executingWorkers := executing.1,
    algorithmState.blockedWorkers := s.algorithmState.blockedWorkers ++ [worker] })

/-- `handle_worker_unblocked`: the reverse of `handle_worker_blocked`, without a dispatch. -/
def handleWorkerUnblocked (s : LocalSchedulerState n) (worker : LocalSchedulerClient) :
    Option (LocalSchedulerState n × List (Effect n)) := do
  let blocked := removeWorkerFromVector s.algorithmState.blockedWorkers worker
  check (blocked.2 = true)
  check (worker ∉ s.algorithmState.executingWorkers)
  pure ({ s with
    algorithmState.blockedWorkers := blocked.1,
    algorithmState.executingWorkers := s.algorithmState.executingWorkers ++ [worker] }, [])

section Shapes

variable {s : LocalSchedulerState n} {worker : LocalSchedulerClient}
  {r : LocalSchedulerState n × List (Effect n)}

theorem handleWorkerAvailable_eq_some :
    handleWorkerAvailable s worker = some r ↔
      worker ∉ s.algorithmState.availableWorkers ∧ worker ∉ s.algorithmState.blockedWorkers ∧
      worker ∉ (removeWorkerFromVector s.algorithmState.executingWorkers worker).1 ∧
      dispatchTasks { s with
        algorithmState.executingWorkers :=
          (removeWorkerFromVector s.algorithmState.executingWorkers worker).1,
        algorithmState.availableWorkers := s.algorithmState.availableWorkers ++ [worker] } = r := by
  simp only [handleWorkerAvailable, check_bind, Option.pure_def, Option.ite_none_right_eq_some,
    Option.some.injEq]

theorem handleWorkerRemoved_eq_some :
    handleWorkerRemoved s worker = some r ↔
      worker.actorId = nilActorId ∧
      worker ∉ (removeWorkerFromVector s.algorithmState.availableWorkers worker).1 ∧
      worker ∉ (removeWorkerFromVector s.algorithmState.executingWorkers worker).1 ∧
      worker ∉ (removeWorkerFromVector s.algorithmState.blockedWorkers worker).1 ∧
      (removeWorkerFromVector s.algorithmState.availableWorkers worker).2.toNat +
        (removeWorkerFromVector s.algorithmState.executingWorkers worker).2.toNat +
        (removeWorkerFromVector s.algorithmState.blockedWorkers worker).2.toNat ≤ 1 ∧
      ({ s with
        algorithmState.availableWorkers :=
          (removeWorkerFromVector s.algorithmState.availableWorkers worker).1,
        algorithmState.executingWorkers :=
          (removeWorkerFromVector s.algorithmState.executingWorkers worker).1,
        algorithmState.blockedWorkers :=
          (removeWorkerFromVector s.algorithmState.blockedWorkers worker).1 }, []) = r := by
  simp only [handleWorkerRemoved, check_bind, Option.pure_def, Option.ite_none_right_eq_some,
    Option.some.injEq]

theorem handleWorkerBlocked_eq_some :
    handleWorkerBlocked s worker = some r ↔
      worker ∈ s.algorithmState.executingWorkers ∧ worker ∉ s.algorithmState.blockedWorkers ∧
      dispatchTasks { s with
        algorithmState.executingWorkers :=
          (removeWorkerFromVector s.algorithmState.executingWorkers worker).1,
        algorithmState.blockedWorkers := s.algorithmState.blockedWorkers ++ [worker] } = r := by
  simp only [handleWorkerBlocked, check_bind, Option.pure_def, Option.ite_none_right_eq_some,
    Option.some.injEq, removeWorkerFromVector_snd, decide_eq_true_eq]

theorem handleWorkerUnblocked_eq_some :
    handleWorkerUnblocked s worker = some r ↔
      worker ∈ s.algorithmState.blockedWorkers ∧ worker ∉ s.algorithmState.executingWorkers ∧
      ({ s with
        algorithmState.blockedWorkers :=
          (removeWorkerFromVector s.algorithmState.blockedWorkers worker).1,
        algorithmState.executingWorkers := s.algorithmState.executingWorkers ++ [worker] }, []) = r := by
  simp only [handleWorkerUnblocked, check_bind, Option.pure_def, Option.ite_none_right_eq_some,
    Option.some.injEq, removeWorkerFromVector_snd, decide_eq_true_eq]

/-- `handle_worker_available` and `handle_worker_blocked` move the worker between the pools
and dispatch; the two others only move it. -/
theorem handleWorkerAvailable_poolsStep (h : handleWorkerAvailable s worker = some r) :
    ∃ s₁, PoolsStep s s₁ ∧ r = dispatchTasks s₁ := by
  obtain ⟨-, -, -, rfl⟩ := handleWorkerAvailable_eq_some.1 h
  exact ⟨_, PoolsStep.of_eq rfl, rfl⟩

theorem handleWorkerBlocked_poolsStep (h : handleWorkerBlocked s worker = some r) :
    ∃ s₁, PoolsStep s s₁ ∧ r = dispatchTasks s₁ := by
  obtain ⟨-, -, rfl⟩ := handleWorkerBlocked_eq_some.1 h
  exact ⟨_, PoolsStep.of_eq rfl, rfl⟩

theorem handleWorkerRemoved_poolsStep (h : handleWorkerRemoved s worker = some r) :
    PoolsStep s r.1 ∧ r.2 = [] := by
  obtain ⟨-, -, -, -, -, rfl⟩ := handleWorkerRemoved_eq_some.1 h
  exact ⟨PoolsStep.of_eq rfl, rfl⟩

theorem handleWorkerUnblocked_poolsStep (h : handleWorkerUnblocked s worker = some r) :
    PoolsStep s r.1 ∧ r.2 = [] := by
  obtain ⟨-, -, rfl⟩ := handleWorkerUnblocked_eq_some.1 h
  exact ⟨PoolsStep.of_eq rfl, rfl⟩

end Shapes

end LocalScheduler
