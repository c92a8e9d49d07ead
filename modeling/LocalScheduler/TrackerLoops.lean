import LocalScheduler.Tracker
import Mathlib.Data.List.Perm.Basic

/-!
# What the tracker's loops compute

Each loop of the dependency tracker in closed form, so that the proofs about the handlers
never unfold a loop. `remote_objects` is read through `dependentsIn` (the dependent cursors
of one object), and the cursors a table should hold are `expectedDependents`.

* `dependentsIn_fetchArgs` — the argument loop appends the cursor once per selected use.
* `moveDependentTasks_eq` — the loop of `handle_object_available` takes off the waiting queue,
  in order, exactly the nodes that are listed and can run, and appends their entries to the
  dispatch queue, as long as the waiting cursors are distinct.
* `requeueDependentTasks_eq` — the dispatch-queue loop of `handle_object_removed` moves the
  tasks that use the object, in order, to new nodes at the back of the waiting queue.
* `dependentsIn_refetchRemoved` — its waiting-queue loop registers every use of the object.
* `purgeDriverTasks_eq` — the purge of `handle_driver_removed` keeps, in every entry, the
  cursors whose node survives the driver's removal, and erases the entries left empty, when
  every cursor has a node.
-/

namespace LocalScheduler

variable {n : Nat}

/-! ## Association lists with distinct keys

The waiting queue is a list of `(cursor, entry)` pairs and `remote_objects` one of `(object,
dependents)` pairs; in both the keys are distinct, so a key names one pair. -/

/-- With distinct keys, `lookup` finds the value of every pair. -/
theorem lookup_eq_of_mem {β : Type} {l : List (Nat × β)} (hl : (l.map Prod.fst).Nodup) {k : Nat}
    {b : β} (hp : (k, b) ∈ l) : l.lookup k = some b := by
  induction l with
  | nil => exact absurd hp (List.not_mem_nil _)
  | cons q l ih =>
    obtain ⟨k', b'⟩ := q
    obtain ⟨hk, hnd⟩ := List.nodup_cons.1 hl
    rcases List.mem_cons.1 hp with he | hmem
    · cases he
      simp
    · have hne : k ≠ k' := by
        rintro rfl
        exact hk (List.mem_map.2 ⟨_, hmem, rfl⟩)
      rw [List.lookup_cons, beq_false_of_ne hne]
      exact ih hnd hmem

/-- With distinct cursors, the node a cursor finds is its only node. -/
theorem filter_fst_eq_of_lookup {β : Type} {l : List (Nat × β)} (hl : (l.map Prod.fst).Nodup)
    {k : Nat} {b : β} (h : l.lookup k = some b) : l.filter (fun p => p.1 = k) = [(k, b)] := by
  obtain ⟨l₁, l₂, rfl, h₁⟩ := List.lookup_eq_some_iff.1 h
  have h₂ : k ∉ l₂.map Prod.fst := by
    simp only [List.map_append, List.map_cons] at hl
    exact (List.nodup_cons.1 (List.nodup_append.1 hl).2.1).1
  rw [List.filter_append, List.filter_eq_nil_iff.2 fun q hq => by
      simpa using (bne_iff_ne.1 (h₁ q hq)).symm,
    List.filter_cons_of_pos (by simp), List.filter_eq_nil_iff.2 fun q hq => by
      simpa using fun he : q.1 = k => h₂ (he ▸ List.mem_map_of_mem Prod.fst hq)]
  rfl

theorem eq_of_lookup_eq_some {β : Type} {l : List (Nat × β)} (hl : (l.map Prod.fst).Nodup)
    {k : Nat} {b : β} (h : l.lookup k = some b) {p : Nat × β} (hp : p ∈ l) (hk : p.1 = k) : p = (k, b) :=
  List.mem_singleton.1 (filter_fst_eq_of_lookup hl h ▸ List.mem_filter.2 ⟨hp, by simpa using hk⟩)


/-! ## Tables of dependents -/

/-- `remote_objects[objectId].dependent_tasks`, or nothing when the object has no entry. -/
def dependentsIn (table : List (ObjectID × List Nat)) (objectId : ObjectID) : List Nat :=
  (table.lookup objectId).getD []

/-- `remote_objects` is a map, and an entry is erased once it has no dependent left. -/
structure TableWF (table : List (ObjectID × List Nat)) : Prop where
  keys_nodup : (table.map Prod.fst).Nodup
  entries_nonempty : ∀ p ∈ table, p.2 ≠ []

@[simp] theorem dependentsIn_cons (k : ObjectID) (l : List Nat) (table : List (ObjectID × List Nat))
    (o : ObjectID) : dependentsIn ((k, l) :: table) o = if o = k then l else dependentsIn table o := by
  by_cases h : o = k
  · subst h
    simp [dependentsIn]
  · simp [dependentsIn, List.lookup_cons, beq_false_of_ne h, h]

theorem dependentsIn_eq_nil_of_not_mem {table : List (ObjectID × List Nat)} {o : ObjectID}
    (ho : o ∉ table.map Prod.fst) : dependentsIn table o = [] := by
  rw [dependentsIn, List.lookup_eq_none_iff.2 fun p hp => bne_iff_ne.2 (by
    rintro rfl
    exact ho (List.mem_map_of_mem Prod.fst hp))]
  rfl

theorem TableWF.nil : TableWF [] := ⟨List.nodup_nil, fun _ h => absurd h (List.not_mem_nil _)⟩

/-- The dependents of a key are its entry's. -/
theorem TableWF.dependentsIn_eq {table : List (ObjectID × List Nat)} (h : TableWF table)
    {o : ObjectID} {l : List Nat} (hp : (o, l) ∈ table) : dependentsIn table o = l := by
  rw [dependentsIn, lookup_eq_of_mem h.keys_nodup hp]
  rfl

/-- A key of a map has dependents. -/
theorem TableWF.dependentsIn_ne_nil {table : List (ObjectID × List Nat)} (h : TableWF table)
    {o : ObjectID} (ho : o ∈ table.map Prod.fst) : dependentsIn table o ≠ [] := by
  obtain ⟨⟨k, l⟩, hp, rfl⟩ := List.mem_map.1 ho
  rw [h.dependentsIn_eq hp]
  exact h.entries_nonempty _ hp

theorem dependentsIn_filter_ne (table : List (ObjectID × List Nat)) (O o : ObjectID) :
    dependentsIn (table.filter fun p => p.1 ≠ O) o = if o = O then [] else dependentsIn table o := by
  induction table with
  | nil => split <;> rfl
  | cons p table ih =>
    obtain ⟨k, l⟩ := p
    rw [List.filter_cons]
    by_cases hk : k = O
    · subst hk
      simp only [ne_eq, not_true_eq_false, decide_False, Bool.false_eq_true, if_false, ih]
      by_cases ho : o = k <;> simp [ho]
    · simp only [ne_eq, hk, not_false_eq_true, decide_True, if_true, dependentsIn_cons, ih]
      by_cases ho : o = k
      · subst ho
        simp [hk]
      · simp [ho]

theorem TableWF.filter {table : List (ObjectID × List Nat)} (h : TableWF table)
    (f : ObjectID × List Nat → Bool) : TableWF (table.filter f) :=
  ⟨h.keys_nodup.sublist ((List.filter_sublist _).map _),
    fun p hp => h.entries_nonempty p (List.mem_of_mem_filter hp)⟩

/-! ## Registering a cursor -/

theorem lookup_pushDependent (table : List (ObjectID × List Nat)) (o : ObjectID) (c : Nat) (o' : ObjectID) :
    (pushDependent table o c).lookup o' =
      (table.lookup o').map fun l => if o' = o then l ++ [c] else l := by
  induction table with
  | nil => rfl
  | cons p table ih =>
    obtain ⟨k, l⟩ := p
    simp only [pushDependent, List.map_cons] at ih ⊢
    have hk : (if k = o then (k, l ++ [c]) else (k, l)) = (k, if k = o then l ++ [c] else l) := by
      split <;> rfl
    rw [hk]
    by_cases hp : o' = k
    · subst hp
      simp
    · simp only [List.lookup_cons, beq_false_of_ne hp, ih]

@[simp] theorem map_fst_pushDependent (table : List (ObjectID × List Nat)) (o : ObjectID) (c : Nat) :
    (pushDependent table o c).map Prod.fst = table.map Prod.fst := by
  simp only [pushDependent, List.map_map]
  exact List.map_congr_left fun p _ => by dsimp only [Function.comp]; split <;> rfl

theorem dependentsIn_fetchMissingDependency (s : LocalSchedulerState n) (c : Nat) (o o' : ObjectID) :
    dependentsIn (fetchMissingDependency s c o).1.algorithmState.remoteObjects o' =
      if o' = o then dependentsIn s.algorithmState.remoteObjects o ++ [c]
      else dependentsIn s.algorithmState.remoteObjects o' := by
  simp only [fetchMissingDependency, dependentsIn, lookup_pushDependent]
  by_cases ho : o' = o
  · subst ho
    cases h : s.algorithmState.remoteObjects.lookup o' <;> simp [h, List.lookup_append]
  · cases h : s.algorithmState.remoteObjects.lookup o <;>
      simp [h, ho, List.lookup_append, List.lookup_cons, beq_false_of_ne ho]

theorem TableWF.fetchMissingDependency {s : LocalSchedulerState n}
    (h : TableWF s.algorithmState.remoteObjects) (c : Nat) (o : ObjectID) :
    TableWF (fetchMissingDependency s c o).1.algorithmState.remoteObjects := by
  simp only [LocalScheduler.fetchMissingDependency]
  constructor
  · rw [map_fst_pushDependent]
    split
    · rename_i hfresh
      have ho : o ∉ s.algorithmState.remoteObjects.map Prod.fst := fun ho => by
        obtain ⟨p, hp, rfl⟩ := List.mem_map.1 ho
        simpa using List.lookup_eq_none_iff.1 (Option.isNone_iff_eq_none.1 hfresh) p hp
      rw [List.map_append]
      exact List.nodup_append_comm.2 (List.nodup_cons.2 ⟨ho, h.keys_nodup⟩)
    · exact h.keys_nodup
  · intro p hp
    obtain ⟨q, hq, rfl⟩ := List.mem_map.1 hp
    by_cases hqo : q.1 = o
    · simp [hqo]
    · simp only [hqo, if_false]
      split at hq
      · rcases List.mem_append.1 hq with hq | hq
        · exact h.entries_nonempty q hq
        · exact absurd (by simp at hq; simp [hq]) hqo
      · exact h.entries_nonempty q hq

theorem dependentsIn_fetchArgs (wanted : ObjectID → Bool) (c : Nat) (o : ObjectID) :
    ∀ (args : List TaskArg) (s : LocalSchedulerState n),
      dependentsIn (fetchArgs wanted c args s).1.algorithmState.remoteObjects o =
        if wanted o then dependentsIn s.algorithmState.remoteObjects o ++
          List.replicate ((args.filterMap TaskArg.refId).count o) c
        else dependentsIn s.algorithmState.remoteObjects o
  | [], s => by split <;> simp [fetchArgs]
  | .byValue :: args, s => by
    simpa [fetchArgs, TaskArg.refId] using dependentsIn_fetchArgs wanted c o args s
  | .byRef o' :: args, s => by
    unfold fetchArgs
    split
    · rename_i hw
      dsimp only
      rw [dependentsIn_fetchArgs wanted c o args, dependentsIn_fetchMissingDependency]
      by_cases ho : o = o'
      · subst ho
        simp [hw, TaskArg.refId, List.count_cons, List.replicate_succ]
      · simp [ho, TaskArg.refId, List.count_cons, Ne.symm ho]
    · rename_i hw
      rw [dependentsIn_fetchArgs wanted c o args]
      by_cases ho : o = o'
      · subst ho
        simp [hw]
      · simp [TaskArg.refId, List.count_cons, Ne.symm ho]

theorem TableWF.fetchArgs (wanted : ObjectID → Bool) (c : Nat) :
    ∀ (args : List TaskArg) {s : LocalSchedulerState n}, TableWF s.algorithmState.remoteObjects →
      TableWF (LocalScheduler.fetchArgs wanted c args s).1.algorithmState.remoteObjects
  | [], _, h => h
  | .byValue :: args, _, h => TableWF.fetchArgs wanted c args h
  | .byRef o :: args, s, h => by
    unfold LocalScheduler.fetchArgs
    split
    · exact TableWF.fetchArgs wanted c args (h.fetchMissingDependency c o)
    · exact TableWF.fetchArgs wanted c args h

/-- Registering a cursor with `o` leaves the entries of the other objects as they were. -/
theorem pushDependent_filter_ne (table : List (ObjectID × List Nat)) (o : ObjectID) (c : Nat) :
    (pushDependent table o c).filter (fun p => p.1 ≠ o) = table.filter fun p => p.1 ≠ o := by
  induction table with
  | nil => rfl
  | cons p table ih => by_cases hp : p.1 = o <;> simpa [pushDependent, List.filter_cons, hp] using ih

theorem fetchMissingDependency_filter_ne (s : LocalSchedulerState n) (c : Nat) (o : ObjectID) :
    (fetchMissingDependency s c o).1.algorithmState.remoteObjects.filter (fun p => p.1 ≠ o) =
      s.algorithmState.remoteObjects.filter fun p => p.1 ≠ o := by
  simp only [fetchMissingDependency, pushDependent_filter_ne]
  split <;> simp [List.filter_append]

/-- The argument loop, run for one object, leaves the entries of the other objects as they
were. -/
theorem fetchArgs_filter_ne (c : Nat) (o : ObjectID) :
    ∀ (args : List TaskArg) (s : LocalSchedulerState n),
      (fetchArgs (· = o) c args s).1.algorithmState.remoteObjects.filter (fun p => p.1 ≠ o) =
        s.algorithmState.remoteObjects.filter fun p => p.1 ≠ o
  | [], _ => rfl
  | .byValue :: args, s => fetchArgs_filter_ne c o args s
  | .byRef o' :: args, s => by
    unfold fetchArgs
    split
    · rename_i h
      obtain rfl : o' = o := of_decide_eq_true h
      exact (fetchArgs_filter_ne c o' args _).trans (fetchMissingDependency_filter_ne s c o')
    · exact fetchArgs_filter_ne c o args s

/-- The argument loop only asks the object store for objects it was told to register. -/
theorem fetchArgs_calls (wanted : ObjectID → Bool) (c : Nat) :
    ∀ (args : List TaskArg) (s : LocalSchedulerState n), ∀ e ∈ (fetchArgs wanted c args s).2,
      ∃ o, wanted o = true ∧ e = .plasmaFetch [o]
  | [], _, _, he => absurd he (List.not_mem_nil _)
  | .byValue :: args, s, e, he => fetchArgs_calls wanted c args s e he
  | .byRef o :: args, s, e, he => by
    unfold fetchArgs at he
    split at he
    · rename_i hw
      rcases List.mem_append.1 he with he | he
      · simp only [fetchMissingDependency] at he
        split at he
        · exact ⟨o, hw, List.mem_singleton.1 he⟩
        · exact absurd he (List.not_mem_nil _)
      · exact fetchArgs_calls wanted c args _ e he
    · exact fetchArgs_calls wanted c args s e he

/-! ## The cursors a table should hold -/

/-- The cursors `remote_objects[objectId]` should hold: one for each by-reference use of the
object by a waiting task, in queue order. -/
def expectedDependents (waiting : List (Nat × TaskQueueEntry n)) (objectId : ObjectID) : List Nat :=
  waiting.flatMap fun p => List.replicate (p.2.spec.refIds.count objectId) p.1

section Expected

variable {W W' : List (Nat × TaskQueueEntry n)} {o : ObjectID}

@[simp] theorem expectedDependents_nil : expectedDependents ([] : List (Nat × TaskQueueEntry n)) o = [] :=
  rfl

@[simp] theorem expectedDependents_append :
    expectedDependents (W ++ W') o = expectedDependents W o ++ expectedDependents W' o :=
  List.flatMap_append _ _ _

@[simp] theorem expectedDependents_cons (p : Nat × TaskQueueEntry n) :
    expectedDependents (p :: W) o =
      List.replicate (p.2.spec.refIds.count o) p.1 ++ expectedDependents W o :=
  rfl

theorem mem_expectedDependents {c : Nat} :
    c ∈ expectedDependents W o ↔ ∃ p ∈ W, p.1 = c ∧ o ∈ p.2.spec.refIds := by
  simp only [expectedDependents, List.mem_flatMap, List.mem_replicate, ne_eq,
    List.count_eq_zero, not_not]
  exact exists_congr fun p => and_congr_right fun _ => by tauto

/-- Tasks that do not use the object add nothing. -/
theorem expectedDependents_eq_nil (h : ∀ p ∈ W, o ∉ p.2.spec.refIds) : expectedDependents W o = [] :=
  List.eq_nil_iff_forall_not_mem.2 fun c hc => by
    obtain ⟨p, hp, -, ho⟩ := mem_expectedDependents.1 hc
    exact h p hp ho

/-- Dropping tasks that do not use the object changes nothing. -/
theorem expectedDependents_filter (f : Nat × TaskQueueEntry n → Bool)
    (h : ∀ p ∈ W, f p = false → o ∉ p.2.spec.refIds) :
    expectedDependents (W.filter f) o = expectedDependents W o := by
  induction W with
  | nil => rfl
  | cons p W ih =>
    have ih := ih fun q hq => h q (List.mem_cons_of_mem _ hq)
    by_cases hp : f p
    · simp [List.filter_cons, hp, ih]
    · simp [List.filter_cons, hp, ih, List.count_eq_zero.2 (h p (List.mem_cons_self _ _) (by simpa using hp))]

/-- With distinct cursors, the tasks a filter keeps hold the cursors it keeps. -/
theorem expectedDependents_filter_eq (hW : (W.map Prod.fst).Nodup) (f : Nat × TaskQueueEntry n → Bool) :
    expectedDependents (W.filter f) o =
      (expectedDependents W o).filter fun c => c ∈ (W.filter f).map Prod.fst := by
  induction W with
  | nil => rfl
  | cons p W ih =>
    obtain ⟨hp, hnd⟩ := List.nodup_cons.1 hW
    have hcur : ∀ c ∈ expectedDependents W o, c ≠ p.1 := fun c hc he => by
      obtain ⟨q, hq, rfl, -⟩ := mem_expectedDependents.1 hc
      exact hp (he ▸ List.mem_map_of_mem Prod.fst hq)
    by_cases hf : f p
    · rw [List.filter_cons_of_pos hf, expectedDependents_cons, expectedDependents_cons, ih hnd,
        List.filter_append]
      congr 1
      · exact (List.filter_eq_self.2 fun c hc => by
          rw [(List.mem_replicate.1 hc).2]
          exact decide_eq_true (List.mem_cons_self _ _)).symm
      · exact List.filter_congr fun c hc => by
          simp only [List.map_cons, List.mem_cons, hcur c hc, false_or]
    · have hrep : (List.replicate (p.2.spec.refIds.count o) p.1).filter
          (fun c => c ∈ (W.filter f).map Prod.fst) = [] :=
        List.filter_eq_nil_iff.2 fun c hc => by
          rw [(List.mem_replicate.1 hc).2]
          exact fun h => hp (((List.filter_sublist _).map _).subset (of_decide_eq_true h))
      rw [List.filter_cons_of_neg hf, expectedDependents_cons, ih hnd, List.filter_append, hrep,
        List.nil_append]

/-- Tasks that use the object once each contribute their cursors, once each, in queue
order. -/
theorem expectedDependents_eq_map_fst (h : ∀ p ∈ W, p.2.spec.refIds.count o = 1) :
    expectedDependents W o = W.map Prod.fst := by
  induction W with
  | nil => rfl
  | cons p W ih =>
    rw [expectedDependents_cons, h p (List.mem_cons_self _ _),
      ih fun q hq => h q (List.mem_cons_of_mem _ hq)]
    rfl

end Expected

/-! ## Failing CHECKs of the argument loop -/

theorem canRun_eq_false_iff {a : SchedulingAlgorithmState n} {spec : TaskSpec n} :
    canRun a spec = false ↔ ∃ o ∈ spec.refIds, a.localObjects o = false := by
  simp [canRun, List.all_eq_false]

theorem fetchMissingDependencies_eq {s : LocalSchedulerState n} {c : Nat} {spec : TaskSpec n}
    {r : LocalSchedulerState n × List (Effect n)} (h : fetchMissingDependencies s c spec = some r) :
    canRun s.algorithmState spec = false ∧
      r = fetchArgs (fun o => !s.algorithmState.localObjects o) c spec.args s := by
  simp only [fetchMissingDependencies, check_bind, Option.pure_def, Option.ite_none_right_eq_some,
    Option.some.injEq, List.length_pos, ne_eq, List.filter_eq_nil_iff] at h
  refine ⟨canRun_eq_false_iff.2 ?_, h.2.symm⟩
  simpa using h.1


theorem canRun_congr {a a' : SchedulingAlgorithmState n} (h : a'.localObjects = a.localObjects) :
    canRun a' = canRun a := by
  unfold canRun
  rw [h]

/-! ## `handle_object_available` -/

/-- Taking off the node of cursor `c` and then the listed runnable nodes of `cs` takes off the
listed runnable nodes of `c :: cs`, when `c`'s node is runnable. -/
theorem filter_move_cons {β : Type} {W : List (Nat × β)} (hW : (W.map Prod.fst).Nodup) {c : Nat}
    {e : β} (he : W.lookup c = some e) (run : β → Bool) (hrun : run e = true) (cs : List Nat) :
    ((W.filter fun p => p.1 ≠ c).filter fun p => !(p.1 ∈ cs && run p.2)) =
        W.filter (fun p => !(p.1 ∈ c :: cs && run p.2)) ∧
      List.Perm (e :: ((W.filter fun p => p.1 ≠ c).filter fun p => p.1 ∈ cs && run p.2).map Prod.snd)
        ((W.filter fun p => p.1 ∈ c :: cs && run p.2).map Prod.snd) := by
  have hc : ∀ p ∈ W, p.1 = c → p = (c, e) := fun p hp => eq_of_lookup_eq_some hW he hp
  refine ⟨?_, ?_⟩
  · rw [List.filter_filter]
    refine List.filter_congr fun p hp => ?_
    by_cases hpc : p.1 = c
    · obtain rfl := hc p hp hpc
      simp [hrun]
    · simp [hpc]
  · have hsplit := (List.filter_append_perm (fun p : Nat × β => decide (p.1 = c))
      (W.filter fun p => p.1 ∈ c :: cs && run p.2)).map Prod.snd
    rw [List.filter_filter, List.filter_filter, List.map_append] at hsplit
    have h₁ : W.filter (fun p => decide (p.1 = c) && (decide (p.1 ∈ c :: cs) && run p.2)) =
        [(c, e)] := by
      rw [← filter_fst_eq_of_lookup hW he]
      refine List.filter_congr fun p hp => ?_
      by_cases hpc : p.1 = c
      · obtain rfl := hc p hp hpc
        simp [hrun]
      · simp [hpc]
    have h₂ : W.filter (fun p => !decide (p.1 = c) && (decide (p.1 ∈ c :: cs) && run p.2)) =
        W.filter (fun p => decide (p.1 ∈ cs) && run p.2 && decide (p.1 ≠ c)) :=
      List.filter_congr fun p _ => by by_cases hpc : p.1 = c <;> simp [hpc]
    rw [h₁, h₂] at hsplit
    rw [List.filter_filter]
    exact hsplit

theorem moveDependentTasks_eq :
    ∀ {cs : List Nat} {a a' : SchedulingAlgorithmState n},
      (a.waitingTaskQueue.map Prod.fst).Nodup → moveDependentTasks cs a = some a' →
      ∃ M : List (TaskQueueEntry n),
        List.Perm M ((a.waitingTaskQueue.filter fun p => p.1 ∈ cs && canRun a p.2.spec).map Prod.snd) ∧
        a' = { a with
          waitingTaskQueue := a.waitingTaskQueue.filter fun p => !(p.1 ∈ cs && canRun a p.2.spec),
          dispatchTaskQueue := a.dispatchTaskQueue ++ M }
  | [], a, a', _, h => ⟨[], by simp, by cases h; simp⟩
  | c :: cs, a, a', hW, h => by
    simp only [moveDependentTasks, Option.bind_eq_bind, Option.bind_eq_some] at h
    obtain ⟨e, he, h⟩ := h
    split at h
    · rename_i hrun
      obtain ⟨M, hM, rfl⟩ := moveDependentTasks_eq (hW.sublist ((List.filter_sublist _).map _)) h
      obtain ⟨hW', hM'⟩ := filter_move_cons hW he (fun t => canRun a t.spec) hrun cs
      refine ⟨e :: M, (hM.cons e).trans hM', ?_⟩
      simp only [List.append_assoc, List.singleton_append]
      congr 1
    · obtain ⟨M, hM, rfl⟩ := moveDependentTasks_eq hW h
      have hcongr : ∀ p ∈ a.waitingTaskQueue, (p.1 ∈ c :: cs && canRun a p.2.spec) =
          (p.1 ∈ cs && canRun a p.2.spec) := fun p hp => by
        by_cases hpc : p.1 = c
        · cases eq_of_lookup_eq_some hW he hp hpc
          simp_all
        · simp [hpc]
      refine ⟨M, ?_, ?_⟩
      · rwa [List.filter_congr hcongr]
      · simp only [List.filter_congr fun p hp => congrArg (!·) (hcongr p hp)]


theorem moveDependentTasks_append :
    ∀ (cs cs' : List Nat) (a : SchedulingAlgorithmState n),
      moveDependentTasks (cs ++ cs') a = (moveDependentTasks cs a).bind (moveDependentTasks cs')
  | [], _, _ => rfl
  | c :: cs, cs', a => by
    simp only [List.cons_append, moveDependentTasks, Option.bind_eq_bind]
    cases a.waitingTaskQueue.lookup c with
    | none => rfl
    | some e =>
      simp only [Option.some_bind]
      split <;> exact moveDependentTasks_append cs cs' _

/-- Listed cursors whose tasks cannot run yet are passed over. -/
theorem moveDependentTasks_skip {a : SchedulingAlgorithmState n} :
    ∀ {cs : List Nat}, (∀ c ∈ cs, ∃ e, a.waitingTaskQueue.lookup c = some e ∧
      canRun a e.spec = false) → moveDependentTasks cs a = some a
  | [], _ => rfl
  | c :: cs, h => by
    obtain ⟨e, he, hrun⟩ := h c (List.mem_cons_self _ _)
    simp only [moveDependentTasks, he, hrun, Option.bind_eq_bind, Option.some_bind,
      Bool.false_eq_true, if_false]
    exact moveDependentTasks_skip fun c hc => h c (List.mem_cons_of_mem _ hc)

/-- The listed nodes, distinct and all able to run, move in list order to the back of the
dispatch queue. -/
theorem moveDependentTasks_promote :
    ∀ {N : List (Nat × TaskQueueEntry n)} {a : SchedulingAlgorithmState n},
      (a.waitingTaskQueue.map Prod.fst).Nodup → (N.map Prod.fst).Nodup →
      (∀ p ∈ N, p ∈ a.waitingTaskQueue ∧ canRun a p.2.spec = true) →
      moveDependentTasks (N.map Prod.fst) a = some { a with
        waitingTaskQueue := a.waitingTaskQueue.filter fun p => p.1 ∉ N.map Prod.fst,
        dispatchTaskQueue := a.dispatchTaskQueue ++ N.map Prod.snd }
  | [], a, _, _, _ => by simp [moveDependentTasks]
  | p :: N, a, hW, hN, h => by
    obtain ⟨hpW, hrun⟩ := h p (List.mem_cons_self _ _)
    obtain ⟨hpN, hN⟩ := List.nodup_cons.1 hN
    simp only [List.map_cons, moveDependentTasks, lookup_eq_of_mem hW hpW, hrun,
      Option.bind_eq_bind, Option.some_bind, if_true]
    rw [moveDependentTasks_promote (a := { a with
        waitingTaskQueue := a.waitingTaskQueue.filter fun q => q.1 ≠ p.1,
        dispatchTaskQueue := a.dispatchTaskQueue ++ [p.2] })
      (hW.sublist ((List.filter_sublist _).map _)) hN
      fun q hq => ⟨List.mem_filter.2 ⟨(h q (List.mem_cons_of_mem _ hq)).1,
        decide_eq_true fun (he : q.1 = p.1) => hpN (he ▸ List.mem_map_of_mem _ hq)⟩,
        (h q (List.mem_cons_of_mem _ hq)).2⟩]
    simp only [List.filter_filter, List.map_cons, List.append_assoc, List.singleton_append]
    congr 3
    funext q
    simp only [List.mem_cons, not_or, Bool.decide_and, Bool.and_comm, ne_eq]

/-! ## `handle_object_removed` -/

theorem requeueDependentTasks_eq (o : ObjectID) :
    ∀ (q : List (TaskQueueEntry n)) (s : LocalSchedulerState n),
      ∃ N : List (Nat × TaskQueueEntry n),
        N.map Prod.snd = q.filter (fun t => t.spec.isDependentOn o) ∧
        N.map Prod.fst = List.range' s.nextAddress N.length ∧
        requeueDependentTasks o q s = ({ s with
          nextAddress := s.nextAddress + N.length,
          algorithmState.waitingTaskQueue := s.algorithmState.waitingTaskQueue ++ N },
          q.filter fun t => !t.spec.isDependentOn o)
  | [], s => ⟨[], rfl, rfl, by simp [requeueDependentTasks]⟩
  | task :: rest, s => by
    unfold requeueDependentTasks
    split
    · rename_i hdep
      obtain ⟨N, h₁, h₂, h₃⟩ := requeueDependentTasks_eq o rest { s with
        nextAddress := s.nextAddress + 1,
        algorithmState.waitingTaskQueue :=
          s.algorithmState.waitingTaskQueue ++ [(s.nextAddress, task)] }
      refine ⟨(s.nextAddress, task) :: N, by simp [h₁, hdep], by simp [h₂, List.range'_succ], ?_⟩
      rw [h₃]
      simp [hdep, Nat.add_assoc, Nat.add_comm 1]
    · rename_i hdep
      obtain ⟨N, h₁, h₂, h₃⟩ := requeueDependentTasks_eq o rest s
      refine ⟨N, by simp [h₁, hdep], h₂, ?_⟩
      rw [h₃]
      simp [hdep]

theorem dependentsIn_refetchRemoved (o o' : ObjectID) :
    ∀ (W : List (Nat × TaskQueueEntry n)) (s : LocalSchedulerState n),
      dependentsIn (refetchRemoved o W s).1.algorithmState.remoteObjects o' =
        if o' = o then dependentsIn s.algorithmState.remoteObjects o ++ expectedDependents W o
        else dependentsIn s.algorithmState.remoteObjects o'
  | [], s => by by_cases ho : o' = o <;> simp [refetchRemoved, ho]
  | (c, entry) :: rest, s => by
    show dependentsIn (refetchRemoved o rest
      (fetchArgs (· = o) c entry.spec.args s).1).1.algorithmState.remoteObjects o' = _
    rw [dependentsIn_refetchRemoved o o' rest, dependentsIn_fetchArgs, dependentsIn_fetchArgs]
    by_cases ho : o' = o
    · subst ho
      simp [TaskSpec.refIds]
    · simp [ho]

theorem TableWF.refetchRemoved (o : ObjectID) :
    ∀ (W : List (Nat × TaskQueueEntry n)) {s : LocalSchedulerState n},
      TableWF s.algorithmState.remoteObjects →
        TableWF (LocalScheduler.refetchRemoved o W s).1.algorithmState.remoteObjects
  | [], _, h => h
  | (c, entry) :: rest, _, h => TableWF.refetchRemoved o rest (h.fetchArgs _ c entry.spec.args)

/-- The loop over the waiting queue leaves the entries of other objects as they were. -/
theorem refetchRemoved_filter_ne (o : ObjectID) :
    ∀ (W : List (Nat × TaskQueueEntry n)) (s : LocalSchedulerState n),
      (refetchRemoved o W s).1.algorithmState.remoteObjects.filter (fun p => p.1 ≠ o) =
        s.algorithmState.remoteObjects.filter fun p => p.1 ≠ o
  | [], _ => rfl
  | (c, entry) :: rest, s =>
    (refetchRemoved_filter_ne o rest _).trans (fetchArgs_filter_ne c o entry.spec.args s)

/-- The loop over the waiting queue only asks for the removed object. -/
theorem refetchRemoved_calls (o : ObjectID) :
    ∀ (W : List (Nat × TaskQueueEntry n)) (s : LocalSchedulerState n),
      ∀ e ∈ (refetchRemoved o W s).2, e = .plasmaFetch [o]
  | [], _, _, he => absurd he (List.not_mem_nil _)
  | (c, entry) :: rest, s, e, he => by
    rcases List.mem_append.1 he with he | he
    · obtain ⟨o', ho', rfl⟩ := fetchArgs_calls _ c entry.spec.args s e he
      rw [of_decide_eq_true ho']
    · exact refetchRemoved_calls o rest _ e he

/-! ## `handle_driver_removed` -/

section Purge

variable {W : List (Nat × TaskQueueEntry n)} (d : WorkerID)

/-- With distinct cursors, a node survives a filter exactly when its cursor does. -/
theorem fst_mem_map_filter_iff (hW : (W.map Prod.fst).Nodup) (f : Nat × TaskQueueEntry n → Bool)
    {p : Nat × TaskQueueEntry n} (hp : p ∈ W) : p.1 ∈ (W.filter f).map Prod.fst ↔ f p = true := by
  refine ⟨fun h => ?_, fun h => List.mem_map_of_mem _ (List.mem_filter.2 ⟨hp, h⟩)⟩
  obtain ⟨q, hq, hqp⟩ := List.mem_map.1 h
  obtain ⟨hqW, hfq⟩ := List.mem_filter.1 hq
  have hl : W.lookup p.1 = some p.2 := lookup_eq_of_mem hW hp
  rwa [eq_of_lookup_eq_some hW hl hqW hqp] at hfq

theorem filterDependents_eq (hW : (W.map Prod.fst).Nodup) :
    ∀ cs : List Nat, (∀ c ∈ cs, c ∈ W.map Prod.fst) →
      filterDependents W d cs =
        some (cs.filter fun c => c ∈ (W.filter fun p => p.2.spec.driverId ≠ d).map Prod.fst)
  | [], _ => rfl
  | c :: cs, h => by
    obtain ⟨p, hp, rfl⟩ := List.mem_map.1 (h c (List.mem_cons_self _ _))
    have hl : W.lookup p.1 = some p.2 := lookup_eq_of_mem hW hp
    simp only [filterDependents, hl, Option.bind_eq_bind, Option.some_bind, Option.pure_def,
      filterDependents_eq hW cs fun c hc => h c (List.mem_cons_of_mem _ hc), List.filter_cons,
      fst_mem_map_filter_iff hW _ hp]
    by_cases hd : p.2.spec.driverId = d <;> simp only [hd, ne_eq, not_true_eq_false, decide_False,
      not_false_eq_true, decide_True, Bool.false_eq_true, if_true, if_false]

theorem purgeDriverTasks_spec (hW : (W.map Prod.fst).Nodup) :
    ∀ R : List (ObjectID × List Nat), TableWF R → (∀ p ∈ R, ∀ c ∈ p.2, c ∈ W.map Prod.fst) →
      ∃ R', purgeDriverTasks W d R = some R' ∧ TableWF R' ∧ (R'.map Prod.fst).Sublist (R.map Prod.fst) ∧
        ∀ o, dependentsIn R' o = (dependentsIn R o).filter
          fun c => c ∈ (W.filter fun p => p.2.spec.driverId ≠ d).map Prod.fst
  | [], _, _ => ⟨[], rfl, TableWF.nil, List.Sublist.slnil, fun _ => rfl⟩
  | (k, l) :: R, hR, h => by
    obtain ⟨hk, hnd⟩ := List.nodup_cons.1 hR.keys_nodup
    obtain ⟨R', hR', hwf, hsub, hdeps⟩ := purgeDriverTasks_spec hW R
      ⟨hnd, fun p hp => hR.entries_nonempty p (List.mem_cons_of_mem _ hp)⟩
      fun p hp => h p (List.mem_cons_of_mem _ hp)
    simp only [purgeDriverTasks, filterDependents_eq d hW l (h (k, l) (List.mem_cons_self _ _)),
      hR', Option.bind_eq_bind, Option.some_bind, Option.pure_def, Option.some.injEq, exists_eq_left']
    have hk' : k ∉ R'.map Prod.fst := fun h' => hk (hsub.subset h')
    split
    · rename_i hkept
      refine ⟨hwf, hsub.cons k, fun o => ?_⟩
      by_cases ho : o = k
      · subst ho
        rw [dependentsIn_eq_nil_of_not_mem hk', dependentsIn_cons, if_pos rfl]
        exact (List.isEmpty_iff.1 hkept).symm
      · rw [hdeps, dependentsIn_cons, if_neg ho]
    · rename_i hkept
      refine ⟨⟨List.nodup_cons.2 ⟨hk', hwf.keys_nodup⟩, List.forall_mem_cons.2
        ⟨fun h => hkept (List.isEmpty_iff.2 h), hwf.entries_nonempty⟩⟩, hsub.cons₂ k, fun o => ?_⟩
      by_cases ho : o = k
      · simp only [dependentsIn_cons, if_pos ho]
      · simp only [dependentsIn_cons, if_neg ho, hdeps]

/-- The purge in closed form: every entry keeps, in order, the cursors whose node survives,
and an entry left with none is erased. -/
theorem purgeDriverTasks_eq (hW : (W.map Prod.fst).Nodup) :
    ∀ R : List (ObjectID × List Nat), (∀ p ∈ R, ∀ c ∈ p.2, c ∈ W.map Prod.fst) →
      purgeDriverTasks W d R = some (R.filterMap fun p =>
        let kept := p.2.filter fun c => c ∈ (W.filter fun q => q.2.spec.driverId ≠ d).map Prod.fst
        if kept.isEmpty then none else some (p.1, kept))
  | [], _ => rfl
  | (k, l) :: R, h => by
    simp only [purgeDriverTasks, filterDependents_eq d hW l (h (k, l) (List.mem_cons_self _ _)),
      purgeDriverTasks_eq hW R fun p hp => h p (List.mem_cons_of_mem _ hp), Option.bind_eq_bind,
      Option.some_bind, Option.pure_def, List.filterMap_cons]
    split <;> simp only [*]

end Purge

/-! ## What the argument loops leave alone -/

section Frames

variable (w : ObjectID → Bool) (c : Nat) (args : List TaskArg) (O : ObjectID)
  (W : List (Nat × TaskQueueEntry n)) (s : LocalSchedulerState n)

theorem fetchArgs_fields : (fetchArgs w c args s).1.algorithmState.waitingTaskQueue =
      s.algorithmState.waitingTaskQueue ∧
    (fetchArgs w c args s).1.algorithmState.dispatchTaskQueue = s.algorithmState.dispatchTaskQueue ∧
    (fetchArgs w c args s).1.algorithmState.localObjects = s.algorithmState.localObjects ∧
    (fetchArgs w c args s).1.nextAddress = s.nextAddress := by
  obtain ⟨R, h⟩ := fetchArgs_eq w c args s
  rw [h]
  exact ⟨rfl, rfl, rfl, rfl⟩

theorem refetchRemoved_fields : (refetchRemoved O W s).1.algorithmState.waitingTaskQueue =
      s.algorithmState.waitingTaskQueue ∧
    (refetchRemoved O W s).1.algorithmState.dispatchTaskQueue = s.algorithmState.dispatchTaskQueue ∧
    (refetchRemoved O W s).1.algorithmState.localObjects = s.algorithmState.localObjects ∧
    (refetchRemoved O W s).1.nextAddress = s.nextAddress := by
  obtain ⟨R, h⟩ := refetchRemoved_eq O W s
  rw [h]
  exact ⟨rfl, rfl, rfl, rfl⟩

end Frames

end LocalScheduler
