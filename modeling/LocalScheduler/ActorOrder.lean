import LocalScheduler.ActorQueue

/-!
# The order in which an actor's tasks run

A trace is read for one actor `A` by `ActorTurn.observe`: how many tasks `A`'s workers have
been handed since `A` was last disconnected, whether its worker has been reported free since
the last of them, and which worker connected last for `A`. `actorTurns` scans a trace and
fails at the first task for a worker of `A` that does not carry the count as its counter, or
does not go to that worker while it is free.

The scan is tied to the state by `ActorTurn.Agrees`: the record of `A` has the count as its
counter and the connected worker as its worker, and is available only while the scan has the
worker free.

* `ActorOps.actorTurns` — operations of the kinds the task handlers do keep the record in
  agreement with the scan of the tasks they hand out; operations on other actors hand no task
  to `A`'s workers.
* `handleEvent_actorTurns`, `runEvents_actorTurns` — every step, then every run from a
  reachable state in which `A` has no record, passes the scan.
* `actor_execution_order` — so the `i`-th task handed to a worker of `A` since `A`'s record was
  created has counter `i`, goes to the worker that connected last for `A`, and between two of
  them that worker has been reported free.
-/

namespace LocalScheduler

open LocalSchedulerState

variable {n : Nat}

/-- What a trace says about one actor so far. -/
structure ActorTurn where
  /-- The number of tasks handed to the actor's workers since it was last disconnected: the
  counter its next task must carry. -/
  next : Int
  /-- The actor's worker has been reported free since the last of those tasks. -/
  free : Bool
  /-- The worker that connected last for the actor. -/
  worker : Option LocalSchedulerClient

namespace ActorTurn

/-- Nothing has happened to the actor yet, or it has just been disconnected. -/
def start : ActorTurn := ⟨0, false, none⟩

variable (A : ActorID)

/-- One observation, read for actor `A`. -/
def observe (m : ActorTurn) : Observation n → ActorTurn
  | .event (.actorWorkerAvailable w) => if w.actorId = A then { m with free := true } else m
  | .event (.actorWorkerConnect w) => if w.actorId = A then { m with worker := some w } else m
  | .event (.actorWorkerDisconnect B) => if B = A then start else m
  | .call (.assignTaskToWorker _ w) =>
    if w.actorId = A then { m with next := m.next + 1, free := false } else m
  | _ => m

/-- A task for a worker of `A` must carry the next counter and go to the worker that connected
last, while it is free. -/
def admits (m : ActorTurn) : Observation n → Bool
  | .call (.assignTaskToWorker t w) =>
    decide (w.actorId = A → t.spec.actorCounter = m.next ∧ m.free = true ∧ m.worker = some w)
  | _ => true

/-- One step of the scan. -/
def step (m : ActorTurn) (o : Observation n) : Option ActorTurn :=
  if m.admits A o then some (m.observe A o) else none

@[simp] theorem step_event (m : ActorTurn) (e : Event n) :
    m.step A (.event e) = some (m.observe A (.event e)) := rfl

end ActorTurn

/-- Scan a trace for actor `A`, from `m`. -/
def actorTurns (A : ActorID) (m : ActorTurn) (obs : List (Observation n)) : Option ActorTurn :=
  obs.foldlM (ActorTurn.step A) m

/-- Scan the tasks one handler hands out. -/
def handOuts (A : ActorID) (m : ActorTurn) (c : List (TaskQueueEntry n × LocalSchedulerClient)) :
    Option ActorTurn :=
  c.foldlM (fun m p => m.step A (.call (.assignTaskToWorker p.1 p.2))) m

section Scan

variable {A : ActorID}

/-- What the scan accepts, it reads as `observe` does. -/
theorem actorTurns_eq_some :
    ∀ {obs : List (Observation n)} {m m' : ActorTurn}, actorTurns A m obs = some m' →
      m' = obs.foldl (ActorTurn.observe A) m
  | [], _, _, h => (Option.some.inj h).symm
  | o :: obs, m, m', h => by
    simp only [actorTurns, List.foldlM_cons, ActorTurn.step] at h
    split at h
    · simp only [Option.bind_eq_bind, Option.some_bind] at h
      exact (actorTurns_eq_some h :)
    · simp at h

/-- At any point of a trace the scan accepts, the next observation is admitted. -/
theorem actorTurns_admits {pre post : List (Observation n)} {o : Observation n}
    {m m'' : ActorTurn} (h : actorTurns A m (pre ++ o :: post) = some m'') :
    (pre.foldl (ActorTurn.observe A) m).admits A o = true := by
  simp only [actorTurns, List.foldlM_append, List.foldlM_cons] at h
  cases hpre : pre.foldlM (ActorTurn.step A) m with
  | none => simp [hpre] at h
  | some m' =>
    rw [← actorTurns_eq_some hpre]
    simp only [hpre, Option.bind_eq_bind, Option.some_bind, ActorTurn.step] at h
    split at h
    · assumption
    · simp at h

/-- The tasks of a handler, among its other calls. -/
theorem actorTurns_calls (A : ActorID) :
    ∀ (m : ActorTurn) (calls : List (Effect n)),
      actorTurns A m (calls.map .call) = handOuts A m (assignments calls)
  | _, [] => rfl
  | m, .assignTaskToWorker t w :: calls => by
    simp only [actorTurns, handOuts, List.map_cons, List.foldlM_cons, assignments_cons_assign]
    cases m.step A (.call (.assignTaskToWorker t w)) with
    | none => rfl
    | some m' => exact actorTurns_calls A m' calls
  | m, .startWorker _ :: calls | m, .plasmaFetch _ :: calls | m, .taskTableAddTask _ :: calls
  | m, .taskTableUpdate _ :: calls | m, .reconstructObject _ :: calls =>
    actorTurns_calls A m calls

/-- Tasks for workers of other actors pass the scan and change nothing. -/
theorem handOuts_of_forall_ne {c : List (TaskQueueEntry n × LocalSchedulerClient)}
    (hc : ∀ p ∈ c, p.2.actorId ≠ A) (m : ActorTurn) : handOuts A m c = some m := by
  induction c with
  | nil => rfl
  | cons p c ih =>
    have hp := hc p (List.mem_cons_self _ _)
    simp only [handOuts, List.foldlM_cons, ActorTurn.step, ActorTurn.admits, ActorTurn.observe,
      hp, false_implies, decide_True, if_true, if_false, Option.some_bind] at ih ⊢
    exact ih fun q hq => hc q (List.mem_cons_of_mem _ hq)

/-- Only a report that `A`'s worker is free makes the scan see it free. -/
theorem observe_free_false {m : ActorTurn} (hm : m.free = false) :
    ∀ o : Observation n, (∀ w, o = .event (.actorWorkerAvailable w) → w.actorId ≠ A) →
      (m.observe A o).free = false
  | .event (.actorWorkerAvailable w), h => by simp [ActorTurn.observe, h w rfl, hm]
  | .event (.actorWorkerConnect w), _ => by
    simp only [ActorTurn.observe]
    split <;> exact hm
  | .event (.actorWorkerDisconnect B), _ => by
    simp only [ActorTurn.observe]
    split
    · rfl
    · exact hm
  | .call (.assignTaskToWorker t w), _ => by
    simp only [ActorTurn.observe]
    split
    · rfl
    · exact hm
  | .event (.taskSubmitted ..), _ | .event (.actorTaskSubmitted ..), _
  | .event (.taskScheduled ..), _ | .event (.actorTaskScheduled ..), _
  | .event (.actorCreationNotification ..), _ | .event (.workerAvailable ..), _
  | .event (.workerRemoved ..), _ | .event (.workerBlocked ..), _
  | .event (.workerUnblocked ..), _ | .event (.objectAvailable ..), _
  | .event (.objectRemoved ..), _ | .event (.driverRemoved ..), _ | .event .fetchTimeout, _
  | .event (.actorMappingAdded ..), _ | .event (.plasmaConnection ..), _
  | .event (.childPids ..), _ | .call (.startWorker ..), _ | .call (.plasmaFetch ..), _
  | .call (.taskTableAddTask ..), _ | .call (.taskTableUpdate ..), _
  | .call (.reconstructObject ..), _ => hm

/-- Once the scan has `A`'s worker busy, it sees it free again only after a report. -/
theorem foldl_observe_free {m : ActorTurn} (hm : m.free = false) :
    ∀ {mid : List (Observation n)}, (mid.foldl (ActorTurn.observe A) m).free = true →
      ∃ w, w.actorId = A ∧ Observation.event (.actorWorkerAvailable w) ∈ mid
  | [], h => by simp [hm] at h
  | o :: mid, h => by
    by_cases hav : ∃ w, o = .event (.actorWorkerAvailable w) ∧ w.actorId = A
    · obtain ⟨w, rfl, hw⟩ := hav
      exact ⟨w, hw, List.mem_cons_self _ _⟩
    · push_neg at hav
      obtain ⟨w, hw, hmem⟩ := foldl_observe_free (observe_free_false hm o hav) h
      exact ⟨w, hw, List.mem_cons_of_mem _ hmem⟩

end Scan

/-! ## The actor records agree with the scan -/

/-- The record of an actor agrees with the scan: its counter is the next one, its worker the
one that connected last, and it is available only while the scan has the worker free. With no
record, no task has been handed out since the disconnection and no worker has connected. -/
def ActorTurn.Agrees (m : ActorTurn) : Option (LocalActorInfo n) → Prop
  | none => m.next = 0 ∧ m.worker = none
  | some info =>
    info.taskCounter = m.next ∧ info.worker = m.worker ∧ (info.workerAvailable = true → m.free = true)

@[simp] theorem ActorTurn.agrees_start : ActorTurn.start.Agrees (none : Option (LocalActorInfo n)) :=
  ⟨rfl, rfl⟩

theorem ActorOpKind.mem_taskOps_fst {p : ActorID × ActorOpKind} {B : ActorID}
    (h : p ∈ ActorOpKind.taskOps B) : p ∈ ActorOpKind.taskOps p.1 := by
  simp only [ActorOpKind.taskOps, List.mem_cons, List.mem_singleton, List.not_mem_nil,
    or_false] at h
  rcases h with rfl | rfl | rfl <;> simp [ActorOpKind.taskOps]

section Records

variable {A : ActorID} {k : ActorOpKind} {o o' : Option (LocalActorInfo n)}
  {c : List (TaskQueueEntry n × LocalSchedulerClient)} {m : ActorTurn}

/-- An operation of a task handler on `A`'s record keeps it in agreement with the scan of what
it hands out: creating the record starts at counter `0` with no worker, and a dispatch hands
the head, whose counter is the record's, to the recorded worker, which is free. -/
theorem ActorOp.actorTurns (h : ActorOp A k o o' c) (hk : (A, k) ∈ ActorOpKind.taskOps A)
    (hkeyed : ∀ info ∈ o, ∀ w ∈ info.worker, w.actorId = A) (hm : m.Agrees o) :
    ∃ m', handOuts A m c = some m' ∧ m'.Agrees o' := by
  cases h with
  | create =>
    simp only [ActorOpKind.taskOps, List.mem_cons, Prod.mk.injEq, true_and,
      ActorOpKind.create.injEq, reduceCtorEq, List.mem_singleton, or_false, List.not_mem_nil] at hk
    subst hk
    obtain ⟨hnext, hworker⟩ := hm
    exact ⟨m, rfl, hnext.symm, hworker.symm, by simp⟩
  | insert => exact ⟨m, rfl, hm⟩
  | connect | available | remove => simp [ActorOpKind.taskOps] at hk
  | dispatch _ _ hcounter havailable hw =>
    obtain ⟨hnext, hworker, hfree⟩ := hm
    have hwA : _ = A := hkeyed _ rfl _ hw
    refine ⟨{ m with next := m.next + 1, free := false }, ?_,
      by simp [ActorTurn.Agrees, hnext, hworker]⟩
    simp [handOuts, ActorTurn.step, ActorTurn.admits, ActorTurn.observe, hwA, hcounter, hnext,
      hfree havailable, ← hworker, hw]

/-- The report that `A`'s worker is free, then the operation it does first. -/
theorem ActorOp.actorTurns_available (h : ActorOp A .available o o' c) (hm : m.Agrees o) :
    c = [] ∧ ({ m with free := true } : ActorTurn).Agrees o' := by
  cases h
  obtain ⟨hnext, hworker, -⟩ := hm
  exact ⟨rfl, hnext, hworker, fun _ => rfl⟩

/-- A worker of `A` connects, then the operation the handler does first. -/
theorem ActorOp.actorTurns_connect {w : LocalSchedulerClient} (h : ActorOp A k o o' c)
    (hk : k = .create (some w) ∨ k = .connect w) (hm : m.Agrees o) :
    c = [] ∧ ({ m with worker := some w } : ActorTurn).Agrees o' := by
  cases h with
  | create =>
    simp only [ActorOpKind.create.injEq, reduceCtorEq, or_false] at hk
    subst hk
    exact ⟨rfl, hm.1.symm, rfl, by simp⟩
  | connect =>
    simp only [reduceCtorEq, ActorOpKind.connect.injEq, false_or] at hk
    subst hk
    obtain ⟨hnext, -, hfree⟩ := hm
    exact ⟨rfl, hnext, rfl, hfree⟩
  | insert | available | dispatch | remove => simp at hk

variable {ks : List (ActorID × ActorOpKind)} {I I' : ActorID → Option (LocalActorInfo n)}

/-- Operations of the task kinds on `A`'s record, and any on other actors' records, keep `A`'s
record in agreement with the scan of the tasks they hand out. -/
theorem ActorOps.actorTurns (h : ActorOps ks I I' c) (hI : ActorWorkersKeyed I)
    (hks : ∀ p ∈ ks, p.1 = A → p ∈ ActorOpKind.taskOps p.1) (hm : m.Agrees (I A)) :
    ∃ m', handOuts A m c = some m' ∧ m'.Agrees (I' A) := by
  induction h generalizing m with
  | refl => exact ⟨m, rfl, hm⟩
  | @cons ks I I' B k o c c' hop _ ih =>
    obtain ⟨m₁, h₁, hm₁⟩ : ∃ m₁, handOuts A m c = some m₁ ∧
        m₁.Agrees (Function.update I B o A) := by
      by_cases hB : B = A
      · subst hB
        obtain ⟨m₁, h₁, hm₁⟩ :=
          hop.actorTurns (hks _ (List.mem_cons_self _ _) rfl) (hI B) hm
        exact ⟨m₁, h₁, by simpa using hm₁⟩
      · refine ⟨m, handOuts_of_forall_ne (fun p hp => ?_) m, by
          simpa [Function.update_noteq (Ne.symm hB)] using hm⟩
        rw [((hop.keyed (hI B)).2 p hp).1]
        exact hB
    obtain ⟨m₂, h₂, hm₂⟩ := ih ((ActorOps.single hop).keyed hI).1
      (fun p hp => hks p (List.mem_cons_of_mem _ hp)) hm₁
    refine ⟨m₂, ?_, hm₂⟩
    simp only [handOuts, List.foldlM_append] at h₁ h₂ ⊢
    simp [h₁, h₂]

end Records

/-! ## Every step and every run -/

section Run

variable {A : ActorID} {s : LocalSchedulerState n} {r : LocalSchedulerState n × List (Effect n)}
  {m : ActorTurn}

/-- The operations of a step, none of them on `A`'s record but of the task kinds. -/
theorem ActorPathStep.actorTurns {allowed : List (ActorID × ActorOpKind) → Prop}
    (hr : ActorPathStep allowed s r) (hkeyed : ActorWorkersKeyed s.algorithmState.localActorInfos)
    (hks : ∀ ks, allowed ks → ∀ p ∈ ks, p.1 = A → p ∈ ActorOpKind.taskOps p.1)
    (hm : m.Agrees (s.algorithmState.localActorInfos A)) :
    ∃ m', handOuts A m (assignments r.2) = some m' ∧
      m'.Agrees (r.1.algorithmState.localActorInfos A) :=
  let ⟨ks, hops, hallowed⟩ := hr.records
  hops.actorTurns hkeyed (hks ks hallowed) hm

/-- Operations all on the record of another actor. -/
theorem fst_eq_taskOps_of_ne {B : ActorID} {ks : List (ActorID × ActorOpKind)}
    (hks : ∀ p ∈ ks, p.1 = B) (hB : B ≠ A) : ∀ p ∈ ks, p.1 = A → p ∈ ActorOpKind.taskOps p.1 :=
  fun p hp hpA => absurd (hpA ▸ (hks p hp).symm) hB

theorem ActorOpKind.thenDispatch_fst {B : ActorID} {first : List (ActorID × ActorOpKind) → Prop}
    (hfirst : ∀ ks, first ks → ∀ p ∈ ks, p.1 = B) {ks : List (ActorID × ActorOpKind)}
    (h : ActorOpKind.thenDispatch B first ks) : ∀ p ∈ ks, p.1 = B := by
  obtain ⟨ks₁, ks₂, rfl, h₁, h₂⟩ := h
  intro p hp
  rcases List.mem_append.1 hp with hp | hp
  · exact hfirst ks₁ h₁ p hp
  · exact congrArg Prod.fst (List.mem_singleton.1 (h₂ hp))

/-- The report that the worker `w` is free: for `A`'s worker the scan sees it free and the
record becomes available; then dispatches. -/
theorem handleActorWorkerAvailable_actorTurns {w : LocalSchedulerClient}
    (hr : ActorPathStep (Event.actorWorkerAvailable w : Event n).actorOps s r)
    (hkeyed : ActorWorkersKeyed s.algorithmState.localActorInfos)
    (hm : m.Agrees (s.algorithmState.localActorInfos A)) :
    ∃ m', handOuts A (m.observe A (.event (.actorWorkerAvailable w) : Observation n)) (assignments r.2) = some m' ∧
      m'.Agrees (r.1.algorithmState.localActorInfos A) := by
  obtain ⟨ks, hops, hks⟩ := hr.records
  by_cases hwA : w.actorId = A
  · subst hwA
    obtain ⟨ks₁, ks₂, rfl, rfl, hks₂⟩ := hks
    obtain ⟨I₁, c₁, c₂, h₁, h₂, hc⟩ := ActorOps.of_append hops
    obtain ⟨o, hop, rfl⟩ := ActorOps.of_single h₁
    obtain ⟨rfl, hagree⟩ := hop.actorTurns_available hm
    rw [hc, List.nil_append]
    simp only [ActorTurn.observe, if_true]
    refine h₂.actorTurns ((ActorOps.single hop).keyed hkeyed).1 (fun p hp _ => ?_)
      (by simpa using hagree)
    rw [List.mem_singleton.1 (hks₂ hp)]
    simp [ActorOpKind.taskOps]
  · simp only [ActorTurn.observe, hwA, if_false]
    exact hops.actorTurns hkeyed (fst_eq_taskOps_of_ne (ActorOpKind.thenDispatch_fst
      (fun _ h p hp => by rw [h, List.mem_singleton] at hp; rw [hp]) hks) hwA) hm

/-- A worker of an actor connects: for `A`'s worker the scan records it and so does the
record; then dispatches. -/
theorem handleActorWorkerConnect_actorTurns {w : LocalSchedulerClient}
    (hr : ActorPathStep (Event.actorWorkerConnect w : Event n).actorOps s r)
    (hkeyed : ActorWorkersKeyed s.algorithmState.localActorInfos)
    (hm : m.Agrees (s.algorithmState.localActorInfos A)) :
    ∃ m', handOuts A (m.observe A (.event (.actorWorkerConnect w) : Observation n)) (assignments r.2) = some m' ∧
      m'.Agrees (r.1.algorithmState.localActorInfos A) := by
  obtain ⟨ks, hops, hks⟩ := hr.records
  have hfirst : ∀ ks : List (ActorID × ActorOpKind),
      (ks = [(w.actorId, .create (some w))] ∨ ks = [(w.actorId, .connect w)]) →
      ∀ p ∈ ks, p.1 = w.actorId := by
    rintro _ (rfl | rfl) p hp <;> rw [List.mem_singleton.1 hp]
  by_cases hwA : w.actorId = A
  · subst hwA
    obtain ⟨ks₁, ks₂, rfl, hks₁, hks₂⟩ := hks
    obtain ⟨I₁, c₁, c₂, h₁, h₂, hc⟩ := ActorOps.of_append hops
    obtain ⟨k, rfl, hk⟩ : ∃ k, ks₁ = [(w.actorId, k)] ∧
        (k = .create (some w) ∨ k = .connect w) := by
      rcases hks₁ with rfl | rfl
      · exact ⟨_, rfl, .inl rfl⟩
      · exact ⟨_, rfl, .inr rfl⟩
    obtain ⟨o, hop, rfl⟩ := ActorOps.of_single h₁
    obtain ⟨rfl, hagree⟩ := hop.actorTurns_connect hk hm
    rw [hc, List.nil_append]
    simp only [ActorTurn.observe, if_true]
    refine h₂.actorTurns ((ActorOps.single hop).keyed hkeyed).1 (fun p hp _ => ?_)
      (by simpa using hagree)
    rw [List.mem_singleton.1 (hks₂ hp)]
    simp [ActorOpKind.taskOps]
  · simp only [ActorTurn.observe, hwA, if_false]
    exact hops.actorTurns hkeyed (fst_eq_taskOps_of_ne
      (ActorOpKind.thenDispatch_fst hfirst hks) hwA) hm

/-- An actor is disconnected: for `A` the scan starts afresh and the record is erased. -/
theorem handleActorWorkerDisconnect_actorTurns {B : ActorID}
    (hr : ActorPathStep (Event.actorWorkerDisconnect B : Event n).actorOps s r)
    (hkeyed : ActorWorkersKeyed s.algorithmState.localActorInfos)
    (hm : m.Agrees (s.algorithmState.localActorInfos A)) :
    ∃ m', handOuts A (m.observe A (.event (.actorWorkerDisconnect B) : Observation n)) (assignments r.2) =
      some m' ∧ m'.Agrees (r.1.algorithmState.localActorInfos A) := by
  obtain ⟨ks, hops, hks⟩ := hr.records
  subst hks
  by_cases hBA : B = A
  · subst hBA
    obtain ⟨o, hop, hI⟩ := ActorOps.of_single hops
    obtain ⟨rfl, hc⟩ := hop.eq_none_of_remove
    simp only [ActorTurn.observe, if_true, hc, hI, Function.update_same]
    exact ⟨_, rfl, ActorTurn.agrees_start⟩
  · simp only [ActorTurn.observe, hBA, if_false]
    exact hops.actorTurns hkeyed (fst_eq_taskOps_of_ne (fun p hp => by
      rw [List.mem_singleton.1 hp]) hBA) hm

/-- An event that does no operation on the actor records is not read for any actor. -/
theorem ActorTurn.observe_event_of_not_actorOps {e : Event n} (hno : ∀ ks, ¬ e.actorOps ks) :
    m.observe A (.event e) = m := by
  cases e with
  | actorWorkerAvailable w =>
    exact (hno [(w.actorId, .available)] ⟨_, [], rfl, rfl, by simp⟩).elim
  | actorWorkerConnect w =>
    exact (hno [(w.actorId, .create (some w))] ⟨_, [], rfl, .inl rfl, by simp⟩).elim
  | actorWorkerDisconnect B => exact (hno [(B, .remove)] rfl).elim
  | _ => rfl

/-- Every step from a reachable state passes the scan for an actor `A`, and keeps `A`'s record
in agreement with it. -/
theorem handleEvent_actorTurns (hA : A ≠ nilActorId) {e : Event n} (hs : Reachable s)
    (h : handleEvent s e = some r) (hm : m.Agrees (s.algorithmState.localActorInfos A)) :
    ∃ m', actorTurns A m (.event e :: r.2.map .call) = some m' ∧
      m'.Agrees (r.1.algorithmState.localActorInfos A) := by
  have hkeyed := reachable_actorWorkersKeyed hs
  have hcalls : actorTurns A m (.event e :: r.2.map .call) =
      handOuts A (m.observe A (.event e)) (assignments r.2) := by
    simp only [actorTurns, List.foldlM_cons, ActorTurn.step_event, Option.some_bind]
    exact actorTurns_calls A _ r.2
  rw [hcalls]
  rcases handleEvent_actorRecords h with ⟨hno, hI, hexec⟩ | hr
  · have hreg := reachable_poolWorkersRegular (hs.step h)
    rw [ActorTurn.observe_event_of_not_actorOps hno, hI]
    refine ⟨m, handOuts_of_forall_ne (fun p hp => ?_) m, hm⟩
    rw [hreg p.2 (by simp [SchedulingAlgorithmState.workerPools, hexec p hp])]
    exact hA.symm
  have htask : ∀ B, ∀ ks, ks ⊆ ActorOpKind.taskOps B →
      ∀ p ∈ ks, p.1 = A → p ∈ ActorOpKind.taskOps p.1 :=
    fun _ _ hks p hp _ => ActorOpKind.mem_taskOps_fst (hks hp)
  cases e with
  | actorTaskSubmitted spec size => exact hr.actorTurns hkeyed (htask _) hm
  | actorTaskScheduled spec size => exact hr.actorTurns hkeyed (htask _) hm
  | actorCreationNotification B => exact hr.actorTurns hkeyed (fun _ hks p hp _ => hks p hp) hm
  | actorWorkerAvailable w => exact handleActorWorkerAvailable_actorTurns hr hkeyed hm
  | actorWorkerConnect w => exact handleActorWorkerConnect_actorTurns hr hkeyed hm
  | actorWorkerDisconnect B => exact handleActorWorkerDisconnect_actorTurns hr hkeyed hm
  | _ => exact (hr.records.elim fun _ h => h.2).elim

/-- Every run from a reachable state passes the scan for an actor `A` whose record agrees with
where the scan starts. -/
theorem runEvents_actorTurns (hA : A ≠ nilActorId) :
    ∀ {es : List (Event n)} {s : LocalSchedulerState n}
      {r : LocalSchedulerState n × List (Observation n)} {m : ActorTurn},
      Reachable s → m.Agrees (s.algorithmState.localActorInfos A) → runEvents s es = some r →
        ∃ m', actorTurns A m r.2 = some m' ∧ m'.Agrees (r.1.algorithmState.localActorInfos A)
  | [], _, _, m, _, hm, h => by
    cases h
    exact ⟨m, rfl, hm⟩
  | e :: es, s, _, m, hs, hm, h => by
    simp only [runEvents, Option.bind_eq_bind, Option.bind_eq_some, Option.pure_def,
      Option.some.injEq] at h
    obtain ⟨q, hq, q', hq', rfl⟩ := h
    obtain ⟨m₁, h₁, hm₁⟩ := handleEvent_actorTurns hA hs hq hm
    obtain ⟨m₂, h₂, hm₂⟩ := runEvents_actorTurns hA (hs.step hq) hm₁ hq'
    refine ⟨m₂, ?_, hm₂⟩
    show actorTurns A m ((.event e :: q.2.map .call) ++ q'.2) = some m₂
    rw [actorTurns, List.foldlM_append]
    rw [actorTurns] at h₁ h₂
    rw [h₁]
    exact h₂

end Run

/-- **Actor execution order.** Take any run from a reachable state in which the actor `A` has
no record (the initial state, for one). Every task the run hands to a worker of `A` carries
as its counter the number of tasks handed to `A`'s workers before it since `A` was last
disconnected, so the `i`-th since `A`'s record was created carries `i`; it goes to the worker
that connected last for `A`; and between two such tasks `A`'s worker was reported free. -/
theorem actor_execution_order (s : LocalSchedulerState n) (es : List (Event n))
    (r : LocalSchedulerState n × List (Observation n)) (A : ActorID) (hA : A ≠ nilActorId)
    (hs : Reachable s) (hnone : s.algorithmState.localActorInfos A = none)
    (h : runEvents s es = some r) :
    (∀ pre t w post, r.2 = pre ++ .call (.assignTaskToWorker t w) :: post → w.actorId = A →
      t.spec.actorCounter = (pre.foldl (ActorTurn.observe A) .start).next ∧
        (pre.foldl (ActorTurn.observe A) .start).worker = some w) ∧
    (∀ pre mid post t t' w w', r.2 = pre ++ .call (.assignTaskToWorker t w) ::
        (mid ++ .call (.assignTaskToWorker t' w') :: post) → w.actorId = A → w'.actorId = A →
      ∃ w'', w''.actorId = A ∧ Observation.event (.actorWorkerAvailable w'') ∈ mid) := by
  obtain ⟨m, hscan, -⟩ := runEvents_actorTurns hA hs (hnone ▸ ActorTurn.agrees_start) h
  refine ⟨fun pre t w post hr hw => ?_, fun pre mid post t t' w w' hr hw hw' => ?_⟩
  · have := actorTurns_admits (hr ▸ hscan)
    simp only [ActorTurn.admits, hw, decide_eq_true_eq, forall_const] at this
    exact ⟨this.1, this.2.2⟩
  · rw [← List.cons_append, ← List.append_assoc] at hr
    have := actorTurns_admits (hr ▸ hscan)
    simp only [ActorTurn.admits, hw', decide_eq_true_eq, forall_const, List.foldl_append,
      List.foldl_cons, List.foldl_nil] at this
    refine foldl_observe_free ?_ this.2.1
    simp [ActorTurn.observe, hw]

theorem actor_execution_order_outOfOrder :
    (∀ pre t w post,
      outOfOrderRun.2 = pre ++ .call (.assignTaskToWorker t w) :: post → w.actorId = 5 →
        t.spec.actorCounter = (pre.foldl (ActorTurn.observe 5) .start).next ∧
          (pre.foldl (ActorTurn.observe 5) .start).worker = some w) ∧
    (∀ pre mid post t t' w w', outOfOrderRun.2 = pre ++ .call (.assignTaskToWorker t w) ::
        (mid ++ .call (.assignTaskToWorker t' w') :: post) → w.actorId = 5 → w'.actorId = 5 →
      ∃ w'', w''.actorId = 5 ∧ Observation.event (.actorWorkerAvailable w'') ∈ mid) :=
  actor_execution_order actorFiveNode outOfOrderEvents outOfOrderRun 5 (by decide) (.init rfl) rfl
    runEvents_outOfOrder

end LocalScheduler
