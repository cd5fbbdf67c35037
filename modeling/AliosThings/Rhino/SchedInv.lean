import AliosThings.Rhino.ReadyQueue
import AliosThings.Rhino.System

/-!
# The scheduler's invariant, operation by operation

`SchedInvR k R` is what the kernel keeps between its steps, with the run queue
holding the set `R`: every priority is below `RHINO_CONFIG_PRI_MAX`, and the
idle task is ready at `RHINO_IDLE_PRI`, in `R`, on no blocked list and owner of no
mutex. Between two calls `R` is the set of ready tasks (`SchedInv`); inside a
call a task may be ready before it is queued or queued after it stopped being
ready, and `R` says which of the two the queue reflects.

Each lemma below takes one function of the model from an invariant state to an
invariant state; the calls of `Kernel.call` are assembled from them.
-/

namespace Rhino

namespace Kernel

/-- The task is in state `K_RDY`. -/
def IsRdy (k : Kernel) (t : Nat) : Prop :=
  (k.tasks t).taskState = .rdy

/-- The invariant, with the run queue holding `R`. -/
structure SchedInvR (k : Kernel) (R : Nat → Prop) : Prop where
  ready : k.readyQueue.Repr (fun t => (k.tasks t).prio) R
  prio_lt : ∀ t, (k.tasks t).prio < rhinoConfigPriMax
  bPrio_lt : ∀ t, (k.tasks t).bPrio < rhinoConfigPriMax
  idle_mem : R idleTask
  idle_rdy : (k.tasks idleTask).taskState = .rdy
  idle_prio : (k.tasks idleTask).prio = rhinoIdlePri
  idle_spawned : k.idleTaskSpawned = true
  idle_not_blocked : ∀ r, idleTask ∉ (k.blkObj r).blkList
  idle_not_owner : ∀ m, (k.mutexes m).mutexTask ≠ some idleTask

/-- The invariant between two steps: the run queue holds the ready tasks. -/
def SchedInv (k : Kernel) : Prop :=
  k.SchedInvR k.IsRdy

variable {k k' : Kernel} {R : Nat → Prop}

theorem SchedInvR.setR (h : k.SchedInvR R) {R' : Nat → Prop} (hR : ∀ t, R' t ↔ R t) :
    k.SchedInvR R' :=
  { h with
    ready := h.ready.mono hR (fun _ _ => rfl)
    idle_mem := (hR idleTask).mpr h.idle_mem }

theorem SchedInvR.toSchedInv (h : k.SchedInvR R) (hR : ∀ t, k.IsRdy t ↔ R t) : k.SchedInv :=
  h.setR hR

/-- A state that agrees on everything the invariant reads keeps it. -/
theorem SchedInvR.congr (h : k.SchedInvR R)
    (htask : ∀ t, (k'.tasks t).taskState = (k.tasks t).taskState ∧
      (k'.tasks t).prio = (k.tasks t).prio ∧ (k'.tasks t).bPrio = (k.tasks t).bPrio)
    (hrq : k'.readyQueue = k.readyQueue) (hsp : k'.idleTaskSpawned = k.idleTaskSpawned)
    (hblk : ∀ r, (k'.blkObj r).blkList = (k.blkObj r).blkList)
    (hown : ∀ m, (k'.mutexes m).mutexTask = (k.mutexes m).mutexTask) : k'.SchedInvR R where
  ready := by
    rw [hrq]
    exact h.ready.mono (fun _ => Iff.rfl) (fun t _ => (htask t).2.1)
  prio_lt t := (htask t).2.1 ▸ h.prio_lt t
  bPrio_lt t := (htask t).2.2 ▸ h.bPrio_lt t
  idle_mem := h.idle_mem
  idle_rdy := (htask idleTask).1 ▸ h.idle_rdy
  idle_prio := (htask idleTask).2.1 ▸ h.idle_prio
  idle_spawned := hsp ▸ h.idle_spawned
  idle_not_blocked r := hblk r ▸ h.idle_not_blocked r
  idle_not_owner m := hown m ▸ h.idle_not_owner m

/-- Writing a control block: the priority of a queued task stays, and the idle
task stays ready at its priority. -/
theorem SchedInvR.setTask (h : k.SchedInvR R) {t : Nat} {f : KTask → KTask}
    (hp : R t → (f (k.tasks t)).prio = (k.tasks t).prio)
    (hlt : (f (k.tasks t)).prio < rhinoConfigPriMax) (hb : (f (k.tasks t)).bPrio < rhinoConfigPriMax)
    (hidle : t = idleTask → (f (k.tasks t)).taskState = .rdy ∧ (f (k.tasks t)).prio = rhinoIdlePri) :
    (k.setTask t f).SchedInvR R where
  ready := by
    refine h.ready.mono (fun _ => Iff.rfl) (fun u hu => ?_)
    by_cases hut : u = t
    · subst hut
      simpa using hp hu
    · simp [hut]
  prio_lt u := by
    by_cases hut : u = t
    · subst hut
      simpa using hlt
    · simpa [hut] using h.prio_lt u
  bPrio_lt u := by
    by_cases hut : u = t
    · subst hut
      simpa using hb
    · simpa [hut] using h.bPrio_lt u
  idle_mem := h.idle_mem
  idle_rdy := by
    by_cases hit : idleTask = t
    · simpa [hit] using (hidle hit.symm).1
    · simpa [hit] using h.idle_rdy
  idle_prio := by
    by_cases hit : idleTask = t
    · simpa [hit] using (hidle hit.symm).2
    · simpa [hit] using h.idle_prio
  idle_spawned := h.idle_spawned
  idle_not_blocked r := by simpa using h.idle_not_blocked r
  idle_not_owner := h.idle_not_owner

/-- Writing a field the invariant does not read. -/
theorem SchedInvR.setTask_of (h : k.SchedInvR R) {t : Nat} {f : KTask → KTask}
    (hs : (f (k.tasks t)).taskState = (k.tasks t).taskState)
    (hp : (f (k.tasks t)).prio = (k.tasks t).prio) (hb : (f (k.tasks t)).bPrio = (k.tasks t).bPrio) :
    (k.setTask t f).SchedInvR R :=
  h.setTask (fun _ => hp) (hp ▸ h.prio_lt t) (hb ▸ h.bPrio_lt t)
    (fun hi => by subst hi; exact ⟨hs ▸ h.idle_rdy, hp ▸ h.idle_prio⟩)

theorem SchedInvR.setBlkList (h : k.SchedInvR R) {r : ObjRef} {l : List Nat}
    (hl : idleTask ∉ l) : (k.setBlkList r l).SchedInvR R where
  ready := by cases r <;> exact h.ready
  prio_lt := by simpa using h.prio_lt
  bPrio_lt := by simpa using h.bPrio_lt
  idle_mem := h.idle_mem
  idle_rdy := by simpa using h.idle_rdy
  idle_prio := by simpa using h.idle_prio
  idle_spawned := by cases r <;> exact h.idle_spawned
  idle_not_blocked r' := by
    rw [blkObj_setBlkList]
    split
    · exact hl
    · exact h.idle_not_blocked r'
  idle_not_owner m := by
    rw [setBlkList_mutexes]
    exact h.idle_not_owner m

theorem SchedInvR.blkListRm (h : k.SchedInvR R) (t : Nat) : (k.blkListRm t).SchedInvR R := by
  unfold Kernel.blkListRm
  split
  · rename_i r _
    exact h.setBlkList fun hm => h.idle_not_blocked r (List.mem_of_mem_erase hm)
  · exact h

theorem SchedInvR.pendListReorder (h : k.SchedInvR R) {t : Nat} (ht : t ≠ idleTask) :
    (k.pendListReorder t).SchedInvR R := by
  unfold Kernel.pendListReorder
  split
  · rename_i r _
    split
    · refine h.setBlkList fun hm => ?_
      rcases (mem_pendListAdd _ _ _ _).mp hm with hm | hm
      · exact h.idle_not_blocked r (List.mem_of_mem_erase hm)
      · exact ht hm.symm
    · exact h
  · exact h

theorem SchedInvR.tickListRm (h : k.SchedInvR R) (t : Nat) : (k.tickListRm t).SchedInvR R := by
  unfold Kernel.tickListRm
  split
  · refine h.congr (fun u => ?_) rfl rfl (fun r => by cases r <;> rfl) (fun _ => rfl)
    by_cases hu : u = t <;> simp [hu]
  · exact h

theorem SchedInvR.tickListInsert (h : k.SchedInvR R) (t time : Nat) :
    (k.tickListInsert t time).SchedInvR R := by
  unfold Kernel.tickListInsert
  split
  · refine h.congr (fun u => ?_) rfl rfl (fun r => by cases r <;> rfl) (fun _ => rfl)
    by_cases hu : u = t <;> simp [hu]
  · exact h

/-- A state with the same tasks and ready queue, in which the idle task still waits
on nothing and owns nothing. -/
theorem SchedInvR.of_objects (h : k.SchedInvR R) (htasks : k'.tasks = k.tasks)
    (hrq : k'.readyQueue = k.readyQueue) (hsp : k'.idleTaskSpawned = k.idleTaskSpawned)
    (hblk : ∀ r, idleTask ∉ (k'.blkObj r).blkList)
    (hown : ∀ m, (k'.mutexes m).mutexTask ≠ some idleTask) : k'.SchedInvR R where
  ready := by
    rw [hrq, htasks]
    exact h.ready
  prio_lt := htasks ▸ h.prio_lt
  bPrio_lt := htasks ▸ h.bPrio_lt
  idle_mem := h.idle_mem
  idle_rdy := htasks ▸ h.idle_rdy
  idle_prio := htasks ▸ h.idle_prio
  idle_spawned := hsp ▸ h.idle_spawned
  idle_not_blocked := hblk
  idle_not_owner := hown

/-- The ghost list of blocked tasks is not read by the scheduler. -/
theorem SchedInvR.withBlocked (h : k.SchedInvR R) (l : List Nat) : ({ k with blocked := l } : Kernel).SchedInvR R :=
  h.of_objects rfl rfl rfl h.idle_not_blocked h.idle_not_owner

theorem SchedInvR.setSem (h : k.SchedInvR R) {s : Nat} {f : KSem → KSem}
    (hl : idleTask ∉ (f (k.sems s)).blkObj.blkList) : (k.setSem s f).SchedInvR R := by
  refine h.of_objects rfl rfl rfl (fun r => ?_) h.idle_not_owner
  rw [blkObj_setSem]
  split
  · exact hl
  · exact h.idle_not_blocked r

theorem SchedInvR.setQueue (h : k.SchedInvR R) {q : Nat} {f : KQueue → KQueue}
    (hl : idleTask ∉ (f (k.queues q)).blkObj.blkList) : (k.setQueue q f).SchedInvR R := by
  refine h.of_objects rfl rfl rfl (fun r => ?_) h.idle_not_owner
  rw [blkObj_setQueue]
  split
  · exact hl
  · exact h.idle_not_blocked r

theorem SchedInvR.setBufQueue (h : k.SchedInvR R) {q : Nat} {f : KBufQueue → KBufQueue}
    (hl : idleTask ∉ (f (k.bufQueues q)).blkObj.blkList) : (k.setBufQueue q f).SchedInvR R := by
  refine h.of_objects rfl rfl rfl (fun r => ?_) h.idle_not_owner
  rw [blkObj_setBufQueue]
  split
  · exact hl
  · exact h.idle_not_blocked r

theorem SchedInvR.setEvent (h : k.SchedInvR R) {e : Nat} {f : KEvent → KEvent}
    (hl : idleTask ∉ (f (k.events e)).blkObj.blkList) : (k.setEvent e f).SchedInvR R := by
  refine h.of_objects rfl rfl rfl (fun r => ?_) h.idle_not_owner
  rw [blkObj_setEvent]
  split
  · exact hl
  · exact h.idle_not_blocked r

theorem SchedInvR.setMutex (h : k.SchedInvR R) {m : Nat} {f : KMutex → KMutex}
    (hl : idleTask ∉ (f (k.mutexes m)).blkObj.blkList)
    (ho : (f (k.mutexes m)).mutexTask ≠ some idleTask) : (k.setMutex m f).SchedInvR R := by
  refine h.of_objects rfl rfl rfl (fun r => ?_) (fun m' => ?_)
  · rw [blkObj_setMutex]
    split
    · exact hl
    · exact h.idle_not_blocked r
  · rw [setMutex_mutexes]
    split
    · exact ho
    · exact h.idle_not_owner m'

theorem SchedInvR.coreSched (h : k.SchedInvR R) : k.coreSched.SchedInvR R := by
  obtain ⟨a, p, hc⟩ := k.coreSched_eq
  rw [hc]
  exact h.congr (fun _ => ⟨rfl, rfl, rfl⟩) rfl rfl (fun r => by cases r <;> rfl) (fun _ => rfl)

theorem SchedInvR.readyListAdd (h : k.SchedInvR R) {t : Nat} (ht : ¬R t) :
    (k.readyListAdd t).SchedInvR (fun u => R u ∨ u = t) :=
  { h with
    ready := h.ready.readyListAdd ht (h.prio_lt t) _
    idle_mem := Or.inl h.idle_mem }

theorem SchedInvR.readyListAddTail (h : k.SchedInvR R) {t : Nat} (ht : ¬R t) :
    (k.readyListAddTail t).SchedInvR (fun u => R u ∨ u = t) :=
  { h with
    ready := h.ready.readyListAddTail ht (h.prio_lt t)
    idle_mem := Or.inl h.idle_mem }

theorem SchedInvR.readyListAddHead (h : k.SchedInvR R) {t : Nat} (ht : ¬R t) :
    (k.readyListAddHead t).SchedInvR (fun u => R u ∨ u = t) :=
  { h with
    ready := h.ready.readyListAddHead ht (h.prio_lt t)
    idle_mem := Or.inl h.idle_mem }

theorem SchedInvR.readyListRm (h : k.SchedInvR R) {t : Nat} (ht : R t) (hidle : t ≠ idleTask) :
    (k.readyListRm t).SchedInvR (fun u => R u ∧ u ≠ t) :=
  { h with
    ready := h.ready.readyListRm ht ⟨idleTask, h.idle_mem, hidle.symm⟩
    idle_mem := ⟨h.idle_mem, hidle.symm⟩ }

theorem SchedInvR.readyListHeadToTail (h : k.SchedInvR R) (t : Nat) :
    (k.readyListHeadToTail t).SchedInvR R :=
  { h with ready := h.ready.readyListHeadToTail _ }

/-! ### Which tasks are ready -/

@[simp] theorem isRdy_setTask {t u : Nat} {f : KTask → KTask} :
    (k.setTask t f).IsRdy u ↔ if u = t then (f (k.tasks t)).taskState = .rdy else k.IsRdy u := by
  unfold IsRdy
  by_cases hu : u = t <;> simp [hu]

@[simp] theorem isRdy_tickListRm {t u : Nat} : (k.tickListRm t).IsRdy u ↔ k.IsRdy u := by
  simp [IsRdy]

@[simp] theorem isRdy_tickListInsert {t time u : Nat} :
    (k.tickListInsert t time).IsRdy u ↔ k.IsRdy u := by
  simp [IsRdy]

@[simp] theorem isRdy_blkListRm {t u : Nat} : (k.blkListRm t).IsRdy u ↔ k.IsRdy u := by
  simp [IsRdy]

@[simp] theorem isRdy_readyListAdd {t u : Nat} : (k.readyListAdd t).IsRdy u ↔ k.IsRdy u :=
  Iff.rfl

@[simp] theorem isRdy_readyListRm {t u : Nat} : (k.readyListRm t).IsRdy u ↔ k.IsRdy u :=
  Iff.rfl

@[simp] theorem isRdy_readyListAddTail {t u : Nat} : (k.readyListAddTail t).IsRdy u ↔ k.IsRdy u :=
  Iff.rfl

@[simp] theorem isRdy_readyListAddHead {t u : Nat} : (k.readyListAddHead t).IsRdy u ↔ k.IsRdy u :=
  Iff.rfl

@[simp] theorem isRdy_readyListHeadToTail {t u : Nat} :
    (k.readyListHeadToTail t).IsRdy u ↔ k.IsRdy u :=
  Iff.rfl

/-! ### Steps that leave the running task alone

`Keeps k k'`: no ready task of `k` stops being ready in `k'`, and the running
task, the scheduler lock and the interrupt nesting are those of `k`. Every step
inside a service that does not block or delete a task keeps them; the services
then need to look at the running task only where they call `core_sched`. -/

/-- The step from `k` to `k'` leaves the scheduler's globals alone: the running
task, the scheduler lock and the interrupt nesting. -/
structure Frame (k k' : Kernel) : Prop where
  active : k'.activeTask = k.activeTask
  lock : k'.schedLock = k.schedLock
  intrpt : k'.intrptNested = k.intrptNested

theorem Frame.refl (k : Kernel) : Frame k k :=
  ⟨rfl, rfl, rfl⟩

theorem Frame.trans {k'' : Kernel} (h₁ : Frame k k') (h₂ : Frame k' k'') : Frame k k'' :=
  ⟨h₂.active.trans h₁.active, h₂.lock.trans h₁.lock, h₂.intrpt.trans h₁.intrpt⟩

theorem frame_setTask (t : Nat) (f : KTask → KTask) : Frame k (k.setTask t f) :=
  ⟨rfl, rfl, rfl⟩

/-- The step from `k` to `k'` leaves the scheduler's globals alone and makes no
ready task unready. -/
structure Keeps (k k' : Kernel) : Prop extends Frame k k' where
  rdy : ∀ t, k.IsRdy t → k'.IsRdy t

theorem Keeps.refl (k : Kernel) : Keeps k k :=
  ⟨Frame.refl k, fun _ h => h⟩

theorem Keeps.trans {k'' : Kernel} (h₁ : Keeps k k') (h₂ : Keeps k' k'') : Keeps k k'' :=
  ⟨h₁.toFrame.trans h₂.toFrame, fun t ht => h₂.rdy t (h₁.rdy t ht)⟩

theorem keeps_setTask {t : Nat} {f : KTask → KTask}
    (hs : (k.tasks t).taskState = .rdy → (f (k.tasks t)).taskState = .rdy) : Keeps k (k.setTask t f) where
  rdy u hu := by
    rw [isRdy_setTask]
    split
    · rename_i hut
      subst hut
      exact hs hu
    · exact hu
  active := rfl
  lock := rfl
  intrpt := rfl

theorem keeps_blkListRm (t : Nat) : Keeps k (k.blkListRm t) := by
  unfold Kernel.blkListRm
  split
  · rename_i r _
    cases r <;> exact ⟨⟨rfl, rfl, rfl⟩, fun _ h => h⟩
  · exact Keeps.refl k

theorem keeps_setBlkList (r : ObjRef) (l : List Nat) : Keeps k (k.setBlkList r l) := by
  cases r <;> exact ⟨⟨rfl, rfl, rfl⟩, fun _ h => h⟩

theorem keeps_tickListRm (t : Nat) : Keeps k (k.tickListRm t) := by
  refine ⟨⟨?_, ?_, ?_⟩, fun u hu => isRdy_tickListRm.mpr hu⟩ <;> unfold Kernel.tickListRm <;>
    split <;> rfl

theorem keeps_tickListInsert (t time : Nat) : Keeps k (k.tickListInsert t time) := by
  refine ⟨⟨?_, ?_, ?_⟩, fun u hu => isRdy_tickListInsert.mpr hu⟩ <;> unfold Kernel.tickListInsert <;>
    split <;> rfl

theorem keeps_readyListAdd (t : Nat) : Keeps k (k.readyListAdd t) :=
  ⟨⟨rfl, rfl, rfl⟩, fun _ h => h⟩

theorem keeps_readyListAddTail (t : Nat) : Keeps k (k.readyListAddTail t) :=
  ⟨⟨rfl, rfl, rfl⟩, fun _ h => h⟩

theorem keeps_readyListAddHead (t : Nat) : Keeps k (k.readyListAddHead t) :=
  ⟨⟨rfl, rfl, rfl⟩, fun _ h => h⟩

theorem keeps_readyListRm (t : Nat) : Keeps k (k.readyListRm t) :=
  ⟨⟨rfl, rfl, rfl⟩, fun _ h => h⟩

theorem keeps_readyListHeadToTail (t : Nat) : Keeps k (k.readyListHeadToTail t) :=
  ⟨⟨rfl, rfl, rfl⟩, fun _ h => h⟩

theorem keeps_setSem (s : Nat) (f : KSem → KSem) : Keeps k (k.setSem s f) :=
  ⟨⟨rfl, rfl, rfl⟩, fun _ h => h⟩

theorem keeps_setQueue (q : Nat) (f : KQueue → KQueue) : Keeps k (k.setQueue q f) :=
  ⟨⟨rfl, rfl, rfl⟩, fun _ h => h⟩

theorem keeps_setBufQueue (q : Nat) (f : KBufQueue → KBufQueue) : Keeps k (k.setBufQueue q f) :=
  ⟨⟨rfl, rfl, rfl⟩, fun _ h => h⟩

theorem keeps_setEvent (e : Nat) (f : KEvent → KEvent) : Keeps k (k.setEvent e f) :=
  ⟨⟨rfl, rfl, rfl⟩, fun _ h => h⟩

theorem keeps_setMutex (m : Nat) (f : KMutex → KMutex) : Keeps k (k.setMutex m f) :=
  ⟨⟨rfl, rfl, rfl⟩, fun _ h => h⟩

theorem keeps_pendListReorder (t : Nat) : Keeps k (k.pendListReorder t) := by
  unfold Kernel.pendListReorder
  split
  · split
    · exact keeps_setBlkList _ _
    · exact Keeps.refl k
  · exact Keeps.refl k

/-- Writing fields of a control block that the invariant does not read. -/
theorem SchedInv.setTask_of (h : k.SchedInv) {t : Nat} {f : KTask → KTask}
    (hs : (f (k.tasks t)).taskState = (k.tasks t).taskState)
    (hp : (f (k.tasks t)).prio = (k.tasks t).prio) (hb : (f (k.tasks t)).bPrio = (k.tasks t).bPrio) :
    (k.setTask t f).SchedInv := by
  refine (SchedInvR.setTask_of h hs hp hb).toSchedInv fun u => ?_
  by_cases hu : u = t
  · subst hu
    simp [IsRdy, hs]
  · simp [hu]

theorem SchedInv.tickListRm (h : k.SchedInv) (t : Nat) : (k.tickListRm t).SchedInv :=
  (SchedInvR.tickListRm h t).toSchedInv fun _ => isRdy_tickListRm

theorem SchedInv.blkListRm (h : k.SchedInv) (t : Nat) : (k.blkListRm t).SchedInv :=
  (SchedInvR.blkListRm h t).toSchedInv fun _ => isRdy_blkListRm

theorem SchedInv.ne_idle (h : k.SchedInv) {t : Nat} (ht : ¬k.IsRdy t) : t ≠ idleTask :=
  fun hi => ht (hi ▸ h.idle_rdy)

/-- Writing the control block of a task that is not ready and stays so. -/
theorem SchedInv.setTask_unqueued (h : k.SchedInv) {t : Nat} {f : KTask → KTask} (ht : ¬k.IsRdy t)
    (hs : (f (k.tasks t)).taskState ≠ .rdy) (hp : (f (k.tasks t)).prio < rhinoConfigPriMax)
    (hb : (f (k.tasks t)).bPrio < rhinoConfigPriMax) : (k.setTask t f).SchedInv := by
  refine (h.setTask (fun hr => absurd hr ht) hp hb (fun hi => absurd hi (h.ne_idle ht))).toSchedInv
    fun u => ?_
  by_cases hu : u = t
  · subst hu
    exact iff_of_false (by simpa [IsRdy] using hs) ht
  · simp [hu]

/-- A task that was not ready is queued and then made ready. -/
theorem SchedInv.readyListAdd_setRdy (h : k.SchedInv) {t : Nat} {f : KTask → KTask} (ht : ¬k.IsRdy t)
    (hs : (f (k.tasks t)).taskState = .rdy) (hp : (f (k.tasks t)).prio = (k.tasks t).prio)
    (hb : (f (k.tasks t)).bPrio = (k.tasks t).bPrio) : ((k.readyListAdd t).setTask t f).SchedInv := by
  have h₁ := (SchedInvR.readyListAdd h ht).setTask (t := t) (f := f) (fun _ => hp)
    (hp ▸ h.prio_lt t) (hb ▸ h.bPrio_lt t) (fun hi => absurd hi (h.ne_idle ht))
  refine h₁.toSchedInv fun u => ?_
  by_cases hu : u = t
  · subst hu
    simp [hs]
  · simp [hu]

/-- A task that was not ready is made ready and then queued. -/
theorem SchedInv.setRdy_readyListAdd (h : k.SchedInv) {t : Nat} {f : KTask → KTask} (ht : ¬k.IsRdy t)
    (hs : (f (k.tasks t)).taskState = .rdy) (hp : (f (k.tasks t)).prio = (k.tasks t).prio)
    (hb : (f (k.tasks t)).bPrio = (k.tasks t).bPrio) : ((k.setTask t f).readyListAdd t).SchedInv := by
  have h₁ := (h.setTask (t := t) (f := f) (fun _ => hp) (hp ▸ h.prio_lt t) (hb ▸ h.bPrio_lt t)
    (fun hi => absurd hi (h.ne_idle ht))).readyListAdd ht
  refine h₁.toSchedInv fun u => ?_
  by_cases hu : u = t
  · subst hu
    simp [hs]
  · simp [hu]

/-! ### Waking a waiter -/

theorem SchedInv.pendTaskLeave (h : k.SchedInv) (t : Nat) : (k.pendTaskLeave t).SchedInv := by
  unfold Kernel.pendTaskLeave
  split
  · -- `K_PEND`: the task goes back to the ready queue, then is made ready
    rename_i hs
    have ht : ¬k.IsRdy t := by simp [IsRdy, hs]
    have h₁ := ((SchedInvR.blkListRm h t).readyListAdd ht).setTask (t := t)
      (f := fun task => { task with taskState := .rdy })
      (fun _ => rfl) (by simpa using h.prio_lt t) (by simpa using h.bPrio_lt t)
      (fun hi => ⟨rfl, by subst hi; simpa using h.idle_prio⟩)
    refine h₁.toSchedInv fun u => ?_
    by_cases hu : u = t <;> simp [hu]
  · -- `K_PEND_SUSPENDED`: off the blocked list only
    rename_i hs
    have h₁ := (h.blkListRm t).setTask (t := t) (f := fun task => { task with taskState := .suspended })
      (fun hr => absurd hr (by simp [IsRdy, hs])) (by simpa using h.prio_lt t)
      (by simpa using h.bPrio_lt t) (fun hi => absurd (hi ▸ h.idle_rdy) (by simp [hs]))
    refine h₁.toSchedInv fun u => ?_
    by_cases hu : u = t
    · subst hu
      simp [IsRdy, hs]
    · simp [hu]
  · exact h

theorem keeps_pendTaskLeave (t : Nat) : Keeps k (k.pendTaskLeave t) := by
  unfold Kernel.pendTaskLeave
  split
  · exact ((keeps_blkListRm t).trans (keeps_readyListAdd t)).trans (keeps_setTask fun _ => rfl)
  · rename_i hs
    exact (keeps_blkListRm t).trans (keeps_setTask fun hr => absurd hr (by simp [hs]))
  · exact Keeps.refl k

theorem SchedInv.pendTaskEnd (h : k.SchedInv) (t : Nat) (st : BlkState) :
    (k.pendTaskEnd t st).SchedInv := by
  unfold Kernel.pendTaskEnd
  have h₁ := (h.pendTaskLeave t).tickListRm t
  refine (h₁.setTask_of rfl rfl rfl).toSchedInv fun u => ?_
  by_cases hu : u = t
  · subst hu
    simp [IsRdy]
  · simp [hu]

theorem keeps_pendTaskEnd (t : Nat) (st : BlkState) : Keeps k (k.pendTaskEnd t st) :=
  ((keeps_pendTaskLeave t).trans (keeps_tickListRm t)).trans (keeps_setTask id)

/-! ### Blocking the running task -/

/-- `pend_to_blk_obj` takes a ready task other than the idle task off the ready
queue: the ready tasks afterwards are the others. -/
theorem SchedInv.pendToBlkObj (h : k.SchedInv) {t : Nat} (ht : k.IsRdy t) (hidle : t ≠ idleTask)
    (r : ObjRef) (timeout : Nat) : (k.pendToBlkObj r t timeout).SchedInv := by
  unfold Kernel.pendToBlkObj
  simp only []
  set k₁ := k.setTask t fun task => { task with blkObj := some r, pendTimeout := timeout }
  set k₂ := if timeout ≠ rhinoWaitForever then k₁.tickListInsert t timeout else k₁ with hk₂
  -- the waiting time only touches the tick fields
  have hs₂ : ∀ u, (k₂.tasks u).taskState = (k.tasks u).taskState ∧
      (k₂.tasks u).prio = (k.tasks u).prio ∧ (k₂.tasks u).bPrio = (k.tasks u).bPrio := by
    intro u
    rw [hk₂]
    by_cases hu : u = t <;> split <;> simp [k₁, hu]
  have h₂ : k₂.SchedInvR k.IsRdy := by
    rw [hk₂]
    split
    · exact (SchedInvR.setTask_of h rfl rfl rfl).tickListInsert t timeout
    · exact SchedInvR.setTask_of h rfl rfl rfl
  have h₃ := h₂.setTask (t := t) (f := fun task => { task with taskState := .pend }) (fun _ => rfl)
    (h₂.prio_lt t) (h₂.bPrio_lt t) (fun hi => absurd hi hidle)
  have h₄ := h₃.readyListRm ht hidle
  have hblk : idleTask ∉
      (((k₂.setTask t fun task => { task with taskState := .pend }).readyListRm t).blkObj r).blkList :=
    h₄.idle_not_blocked r
  refine SchedInvR.toSchedInv (R := fun u => k.IsRdy u ∧ u ≠ t) ?_ fun u => ?_
  · split
    · exact (h₄.setBlkList fun hm => (List.mem_append.mp hm).elim hblk fun hm =>
        hidle (List.mem_singleton.mp hm).symm).withBlocked _
    · exact (h₄.setBlkList fun hm => ((mem_pendListAdd _ _ _ _).mp hm).elim hblk fun hm =>
        hidle hm.symm).withBlocked _
  · have hrdy : ∀ l, (((k₂.setTask t fun task => { task with taskState := .pend }).readyListRm t).setBlkList
        r l).IsRdy u ↔ k.IsRdy u ∧ u ≠ t := by
      intro l
      by_cases hu : u = t
      · simp [IsRdy, hu]
      · simp [IsRdy, hu, (hs₂ u).1]
    split <;> exact hrdy _

theorem frame_pendToBlkObj (r : ObjRef) (t timeout : Nat) : Frame k (k.pendToBlkObj r t timeout) := by
  unfold Kernel.pendToBlkObj
  simp only []
  set k₁ := k.setTask t fun task => { task with blkObj := some r, pendTimeout := timeout }
  set k₂ := if timeout ≠ rhinoWaitForever then k₁.tickListInsert t timeout else k₁ with hk₂
  have h₂ : Frame k k₂ := by
    rw [hk₂]
    split
    · exact (frame_setTask _ _).trans (keeps_tickListInsert t timeout).toFrame
    · exact frame_setTask _ _
  have h₄ : Frame k ((k₂.setTask t fun task => { task with taskState := .pend }).readyListRm t) :=
    (h₂.trans (frame_setTask _ _)).trans (keeps_readyListRm t).toFrame
  split
  · exact (h₄.trans (keeps_setBlkList _ _).toFrame).trans ⟨rfl, rfl, rfl⟩
  · exact (h₄.trans (keeps_setBlkList _ _).toFrame).trans ⟨rfl, rfl, rfl⟩

/-! ### Priority changes -/

/-- A new priority for a task that is not queued. -/
theorem SchedInv.setPrio (h : k.SchedInv) {t p : Nat} (ht : ¬k.IsRdy t)
    (hp : p < rhinoConfigPriMax) : (k.setTask t fun task => { task with prio := p }).SchedInv :=
  h.setTask_unqueued ht ht hp (h.bPrio_lt t)

/-- A new priority for a queued task: out of the ready queue, then back in. -/
theorem SchedInv.requeue (h : k.SchedInv) {t p : Nat} (ht : k.IsRdy t) (hidle : t ≠ idleTask)
    (hp : p < rhinoConfigPriMax) :
    let k' := (k.readyListRm t).setTask t fun task => { task with prio := p }
    (if t = k'.activeTask then k'.readyListAddHead t else k'.readyListAddTail t).SchedInv := by
  intro k'
  have h₁ : k'.SchedInvR fun u => k.IsRdy u ∧ u ≠ t :=
    (h.readyListRm ht hidle).setTask (fun hr => absurd rfl hr.2) hp (by simpa using h.bPrio_lt t)
      (fun hi => absurd hi hidle)
  have hR : ∀ u, k'.IsRdy u ↔ (k.IsRdy u ∧ u ≠ t) ∨ u = t := by
    intro u
    by_cases hu : u = t
    · subst hu
      simpa [k', IsRdy] using ht
    · simp [k', hu]
  split
  · exact (h₁.readyListAddHead fun hr => hr.2 rfl).toSchedInv hR
  · exact (h₁.readyListAddTail fun hr => hr.2 rfl).toSchedInv hR

/-- The round of `task_pri_change` on a waiting task, given what the rest of the
loop does. -/
theorem SchedInv.taskPriChangeLoop_pend (h : k.SchedInv) {fuel t newPri : Nat}
    (ih : ∀ {k : Kernel} {t newPri : Nat}, k.SchedInv → t ≠ idleTask → newPri < rhinoConfigPriMax →
      (taskPriChangeLoop fuel k t newPri).1.SchedInv)
    (ht : ¬k.IsRdy t) (hidle : t ≠ idleTask) (hp : newPri < rhinoConfigPriMax) :
    (let k' := (k.setTask t fun task => { task with prio := newPri }).pendListReorder t
     match k'.priChangeNext t (k.tasks t).prio newPri with
     | some (o, p) => taskPriChangeLoop fuel k' o p
     | none => (k', Kstat.success)).1.SchedInv := by
  have h₁ := h.setPrio ht hp
  have h₂ : ((k.setTask t fun task => { task with prio := newPri }).pendListReorder t).SchedInv :=
    (h₁.pendListReorder hidle).toSchedInv fun u => by simp [IsRdy]
  dsimp only
  split
  · rename_i o p hnext
    obtain ⟨⟨m, hm⟩, hp'⟩ := priChangeNext_eq_some hnext
    refine ih h₂ (fun ho => h₂.idle_not_owner m (ho ▸ hm)) ?_
    rcases hp' with rfl | rfl
    · exact hp
    · exact lt_of_le_of_lt (mutexPriLook_le _ _ _) (h₂.bPrio_lt o)
  · exact h₂

/-- The loop of `task_pri_change` keeps the invariant when it starts on a task other
than the idle task with a priority in range. Induction on the fuel: each round
changes one task, and the next is the owner of a mutex, never the idle task. -/
theorem SchedInv.taskPriChangeLoop (fuel : Nat) :
    ∀ {k : Kernel} {t newPri : Nat}, k.SchedInv → t ≠ idleTask → newPri < rhinoConfigPriMax →
      (taskPriChangeLoop fuel k t newPri).1.SchedInv := by
  induction fuel with
  | zero => intro k _ _ h _ _; exact h
  | succ fuel ih =>
    intro k t newPri h hidle hp
    unfold Rhino.Kernel.taskPriChangeLoop
    split
    · exact h
    split
    · rename_i hs
      exact h.requeue hs hidle hp
    -- sleeping or suspended: the priority alone changes
    · rename_i hs
      exact h.setPrio (by simp [IsRdy, hs]) hp
    · rename_i hs
      exact h.setPrio (by simp [IsRdy, hs]) hp
    · rename_i hs
      exact h.setPrio (by simp [IsRdy, hs]) hp
    -- waiting: the blocked list is reordered and the loop may go on to the owner
    · rename_i hs
      exact h.taskPriChangeLoop_pend ih (by simp [IsRdy, hs]) hidle hp
    · rename_i hs
      exact h.taskPriChangeLoop_pend ih (by simp [IsRdy, hs]) hidle hp
    · exact h

theorem keeps_taskPriChangeLoop (fuel : Nat) :
    ∀ (k : Kernel) (t newPri : Nat), Keeps k (taskPriChangeLoop fuel k t newPri).1 := by
  induction fuel with
  | zero => intro k _ _; exact Keeps.refl k
  | succ fuel ih =>
    intro k t newPri
    unfold Rhino.Kernel.taskPriChangeLoop
    split
    · exact Keeps.refl k
    split
    · have h₁ : Keeps k ((k.readyListRm t).setTask t fun task => { task with prio := newPri }) :=
        (keeps_readyListRm t).trans (keeps_setTask id)
      dsimp only
      split
      · exact h₁.trans (keeps_readyListAddHead t)
      · exact h₁.trans (keeps_readyListAddTail t)
    all_goals dsimp only
    · exact keeps_setTask id
    · exact keeps_setTask id
    · exact keeps_setTask id
    -- a waiter: its list is reordered, then the loop may go on to the owner
    all_goals try split
    all_goals first
      | exact Keeps.refl k
      | exact ((keeps_setTask (fun h => h)).trans (keeps_pendListReorder t)).trans (ih _ _ _)
      | exact (keeps_setTask (fun h => h)).trans (keeps_pendListReorder t)

theorem SchedInv.mutexRelease (h : k.SchedInv) {t : Nat} (hidle : t ≠ idleTask) (rel : Option Nat) :
    (k.mutexRelease t rel).SchedInv := by
  have hle := k.mutexPriLook_le t rel
  unfold Kernel.mutexRelease
  rcases hpl : k.mutexPriLook t rel with ⟨newPri, chain⟩
  rw [hpl] at hle
  have h₁ : (k.setTask t fun task => { task with mutexList := chain }).SchedInv :=
    h.setTask_of rfl rfl rfl
  dsimp only
  split
  · exact h₁.taskPriChangeLoop _ hidle (lt_of_le_of_lt hle (h.bPrio_lt t))
  · exact h₁

theorem keeps_mutexRelease (t : Nat) (rel : Option Nat) : Keeps k (k.mutexRelease t rel) := by
  unfold Kernel.mutexRelease
  rcases k.mutexPriLook t rel with ⟨newPri, chain⟩
  have h₁ : Keeps k (k.setTask t fun task => { task with mutexList := chain }) := keeps_setTask id
  dsimp only
  split
  · exact h₁.trans (keeps_taskPriChangeLoop _ _ _ _)
  · exact h₁

theorem SchedInv.mutexTaskPriReset (h : k.SchedInv) (t : Nat) : (k.mutexTaskPriReset t).SchedInv := by
  unfold Kernel.mutexTaskPriReset
  split
  · rename_i m _
    split
    · split
      · rename_i o howner
        split
        · exact h.mutexRelease (fun ho => h.idle_not_owner m (ho ▸ howner)) none
        · exact h
      · exact h
    · exact h
  · exact h

theorem keeps_mutexTaskPriReset (t : Nat) : Keeps k (k.mutexTaskPriReset t) := by
  unfold Kernel.mutexTaskPriReset
  split
  · split
    · split
      · split
        · exact keeps_mutexRelease _ _
        · exact Keeps.refl k
      · exact Keeps.refl k
    · exact Keeps.refl k
  · exact Keeps.refl k

/-! ### Loops over waiters -/

theorem SchedInv.taskMutexFree (h : k.SchedInv) (t : Nat) : (k.taskMutexFree t).SchedInv := by
  unfold Kernel.taskMutexFree
  generalize (k.tasks t).mutexList = ms
  induction ms generalizing k with
  | nil => exact h
  | cons m ms ih =>
    unfold Kernel.taskMutexFree.go
    split
    · -- the first waiter is woken and becomes the owner
      rename_i w _ hl
      have hw : w ≠ idleTask := fun hi =>
        h.idle_not_blocked (.mutex m) (by rw [← hi]; exact hl ▸ List.mem_cons_self)
      have h₁ := h.pendTaskEnd w .finish
      have h₂ : ((k.pendTaskWakeup w).setMutex m fun mx => { mx with mutexTask := some w }).SchedInv :=
        h₁.setMutex (h₁.idle_not_blocked (.mutex m)) (fun ho => hw (Option.some_injective _ ho))
      exact ih (h₂.setTask_of rfl rfl rfl)
    · exact ih (h.setMutex (h.idle_not_blocked (.mutex m)) (Option.some_ne_none _).symm)

theorem keeps_taskMutexFree (t : Nat) : Keeps k (k.taskMutexFree t) := by
  unfold Kernel.taskMutexFree
  generalize (k.tasks t).mutexList = ms
  induction ms generalizing k with
  | nil => exact Keeps.refl k
  | cons m ms ih =>
    unfold Kernel.taskMutexFree.go
    split
    · rename_i w _ _
      have h₁ : Keeps k (((k.pendTaskWakeup w).setMutex m fun mx => { mx with mutexTask := some w }).setTask
          w fun task => { task with mutexList := m :: task.mutexList }) :=
        ((keeps_pendTaskEnd w .finish).trans (keeps_setMutex _ _)).trans (keeps_setTask id)
      exact h₁.trans ih
    · exact (keeps_setMutex _ _).trans ih

theorem SchedInv.pendTaskRmAll (h : k.SchedInv) (l : List Nat) : (k.pendTaskRmAll l).SchedInv := by
  induction l generalizing k with
  | nil => exact h
  | cons t l ih => exact ih (h.pendTaskEnd t .del)

theorem keeps_pendTaskRmAll (l : List Nat) : Keeps k (k.pendTaskRmAll l) := by
  induction l generalizing k with
  | nil => exact Keeps.refl k
  | cons t l ih => exact (keeps_pendTaskEnd t .del).trans ih

theorem SchedInv.pendTaskWakeupAll (h : k.SchedInv) (l : List Nat) : (k.pendTaskWakeupAll l).SchedInv := by
  induction l generalizing k with
  | nil => exact h
  | cons t l ih => exact ih (h.pendTaskEnd t .finish)

theorem keeps_pendTaskWakeupAll (l : List Nat) : Keeps k (k.pendTaskWakeupAll l) := by
  induction l generalizing k with
  | nil => exact Keeps.refl k
  | cons t l ih => exact (keeps_pendTaskEnd t .finish).trans ih

theorem SchedInv.taskMsgRecv (h : k.SchedInv) (t p : Nat) : (k.taskMsgRecv t p).SchedInv :=
  (h.setTask_of rfl rfl rfl).pendTaskEnd t .finish

theorem keeps_taskMsgRecv (t p : Nat) : Keeps k (k.taskMsgRecv t p) :=
  (keeps_setTask id).trans (keeps_pendTaskEnd t .finish)

theorem SchedInv.taskMsgRecvAll (h : k.SchedInv) (p : Nat) (l : List Nat) :
    (k.taskMsgRecvAll p l).SchedInv := by
  induction l generalizing k with
  | nil => exact h
  | cons t l ih => exact ih (h.taskMsgRecv t p)

theorem keeps_taskMsgRecvAll (p : Nat) (l : List Nat) : Keeps k (k.taskMsgRecvAll p l) := by
  induction l generalizing k with
  | nil => exact Keeps.refl k
  | cons t l ih => exact (keeps_taskMsgRecv t p).trans ih

theorem SchedInv.eventSetWake (h : k.SchedInv) (e : Nat) (cur : UInt32) (l : List Nat) :
    (k.eventSetWake e cur l).SchedInv := by
  induction l generalizing k with
  | nil => exact h
  | cons t l ih =>
    unfold Kernel.eventSetWake
    dsimp only
    split
    · have h₁ := (h.setTask_of (t := t) (f := fun task => { task with pendInfo := cur }) rfl rfl
        rfl).pendTaskEnd t .finish
      refine ih ?_
      split
      · exact h₁.setEvent (h₁.idle_not_blocked (.event e))
      · exact h₁
    · exact ih h

theorem keeps_eventSetWake (e : Nat) (cur : UInt32) (l : List Nat) :
    Keeps k (k.eventSetWake e cur l) := by
  induction l generalizing k with
  | nil => exact Keeps.refl k
  | cons t l ih =>
    unfold Kernel.eventSetWake
    dsimp only
    split
    · have h₁ : Keeps k ((k.setTask t fun task => { task with pendInfo := cur }).pendTaskWakeup t) :=
        (keeps_setTask id).trans (keeps_pendTaskEnd t .finish)
      refine h₁.trans ?_
      split
      · exact (keeps_setEvent _ _).trans ih
      · exact ih
    · exact ih

/-! ### The tick -/

theorem SchedInv.tickExpire (h : k.SchedInv) (t : Nat) : (k.tickExpire t).SchedInv := by
  unfold Kernel.tickExpire
  split
  · -- `K_SLEEP`: ready again, and queued
    rename_i hs
    have ht : ¬k.IsRdy t := by simp [IsRdy, hs]
    have h₁ := (h.setTask (t := t) (f := fun task => { task with blkState := .finish, taskState := .rdy })
      (fun _ => rfl) (h.prio_lt t) (h.bPrio_lt t) (fun hi => absurd hi (h.ne_idle ht))).tickListRm t
    refine (h₁.readyListAdd ht).toSchedInv fun u => ?_
    by_cases hu : u = t <;> simp [hu]
  · -- `K_PEND`: off both lists, queued and ready; the owner of a mutex it waited
    -- for may give back the priority it lent
    rename_i hs
    have ht : ¬k.IsRdy t := by simp [IsRdy, hs]
    have h₁ := (((SchedInvR.tickListRm h t).blkListRm t).readyListAdd ht).setTask (t := t)
      (f := fun task => { task with blkState := .timeout, taskState := .rdy }) (fun _ => rfl)
      (by simpa using h.prio_lt t) (by simpa using h.bPrio_lt t) (fun hi => absurd hi (h.ne_idle ht))
    refine ((h₁.toSchedInv fun u => ?_).mutexTaskPriReset t).setTask_of rfl rfl rfl
    by_cases hu : u = t <;> simp [hu]
  · -- `K_PEND_SUSPENDED`: off both lists, suspended
    rename_i hs
    have h₁ := (h.tickListRm t).blkListRm t
    have h₂ := h₁.setTask_unqueued (t := t)
      (f := fun task => { task with blkState := .timeout, taskState := .suspended })
      (by simp [IsRdy, hs]) (by simp) (by simpa using h.prio_lt t) (by simpa using h.bPrio_lt t)
    exact (h₂.mutexTaskPriReset t).setTask_of rfl rfl rfl
  · -- `K_SLEEP_SUSPENDED`: suspended, off the tick list
    rename_i hs
    have h₁ := h.setTask_unqueued (t := t)
      (f := fun task => { task with taskState := .suspended, blkState := .finish })
      (by simp [IsRdy, hs]) (by simp) (h.prio_lt t) (h.bPrio_lt t)
    exact h₁.tickListRm t
  · exact h

theorem keeps_tickExpire (t : Nat) : Keeps k (k.tickExpire t) := by
  unfold Kernel.tickExpire
  split
  · exact ((keeps_setTask fun _ => rfl).trans (keeps_tickListRm t)).trans (keeps_readyListAdd t)
  · have h₁ : Keeps k ((((k.tickListRm t).blkListRm t).readyListAdd t).setTask t fun task =>
        { task with blkState := .timeout, taskState := .rdy }) :=
      (((keeps_tickListRm t).trans (keeps_blkListRm t)).trans (keeps_readyListAdd t)).trans
        (keeps_setTask fun _ => rfl)
    exact (h₁.trans (keeps_mutexTaskPriReset t)).trans (keeps_setTask id)
  · rename_i hs
    have h₁ : Keeps k (((k.tickListRm t).blkListRm t).setTask t fun task =>
        { task with blkState := .timeout, taskState := .suspended }) :=
      ((keeps_tickListRm t).trans (keeps_blkListRm t)).trans
        (keeps_setTask fun hr => absurd hr (by simp [hs]))
    exact (h₁.trans (keeps_mutexTaskPriReset t)).trans (keeps_setTask id)
  · rename_i hs
    exact (keeps_setTask fun hr => absurd hr (by simp [hs])).trans (keeps_tickListRm t)
  · exact Keeps.refl k

theorem SchedInv.tickListUpdate_go (h : k.SchedInv) (l : List Nat) :
    (tickListUpdate.go k l).SchedInv := by
  induction l generalizing k with
  | nil => exact h
  | cons t l ih =>
    unfold Kernel.tickListUpdate.go
    split
    · exact ih (h.tickExpire t)
    · exact h

theorem SchedInv.tickListUpdate (h : k.SchedInv) (ticks : Nat) :
    (k.tickListUpdate ticks).SchedInv := by
  unfold Kernel.tickListUpdate
  exact SchedInv.tickListUpdate_go (k := { k with tickCount := tickWrap (k.tickCount + ticks) })
    (h.congr (fun _ => ⟨rfl, rfl, rfl⟩) rfl rfl (fun r => by cases r <;> rfl) (fun _ => rfl)) k.tickList

theorem keeps_tickListUpdate_go (l : List Nat) : Keeps k (tickListUpdate.go k l) := by
  induction l generalizing k with
  | nil => exact Keeps.refl k
  | cons t l ih =>
    unfold Kernel.tickListUpdate.go
    split
    · exact (keeps_tickExpire t).trans ih
    · exact Keeps.refl k

theorem keeps_tickListUpdate (ticks : Nat) : Keeps k (k.tickListUpdate ticks) := by
  unfold Kernel.tickListUpdate
  -- the tick counter is not part of what the step keeps
  have hc : Keeps k { k with tickCount := tickWrap (k.tickCount + ticks) } := ⟨⟨rfl, rfl, rfl⟩, fun _ h => h⟩
  exact hc.trans (keeps_tickListUpdate_go _)

theorem SchedInv.timeSliceUpdate (h : k.SchedInv) : k.timeSliceUpdate.SchedInv := by
  unfold Kernel.timeSliceUpdate
  dsimp only
  split
  · exact h
  · rename_i t rest _
    split
    · exact h
    split
    · exact h
    -- the slice left, whatever it is: only the slice fields and the list order change
    generalize (if 0 < (k.tasks t).timeSlice then (k.tasks t).timeSlice - 1
      else (k.tasks t).timeSlice) = slice
    have h₁ := h.setTask_of (t := t) (f := fun task => { task with timeSlice := slice }) rfl rfl rfl
    split
    · exact h₁
    · exact SchedInv.setTask_of (h₁.readyListHeadToTail t) rfl rfl rfl

theorem keeps_timeSliceUpdate : Keeps k k.timeSliceUpdate := by
  unfold Kernel.timeSliceUpdate
  dsimp only
  split
  · exact Keeps.refl k
  · rename_i t rest _
    split
    · exact Keeps.refl k
    split
    · exact Keeps.refl k
    generalize (if 0 < (k.tasks t).timeSlice then (k.tasks t).timeSlice - 1
      else (k.tasks t).timeSlice) = slice
    have h₁ : Keeps k (k.setTask t fun task => { task with timeSlice := slice }) := keeps_setTask id
    split
    · exact h₁
    · exact (h₁.trans (keeps_readyListHeadToTail t)).trans (keeps_setTask id)

end Kernel

end Rhino
