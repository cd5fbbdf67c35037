import AliosThings.Rhino.SchedInv

/-!
# The scheduler's invariant over whole runs

`Inv k` is what holds between two calls: the scheduler's invariant, the running
task ready, and no interrupt being served. Each service keeps it, under what its
callers guarantee (`callOk`): a task is created only on a control block that is
not in use, an object only where no task waits on it, and the idle task makes no
call that could block it or make it own a mutex. From `krhino_init` every
admissible run then ends in a state where the ready queue holds exactly the ready
tasks and `preferred_cpu_ready_task_get` picks a ready task of the best priority.

A service that can hand the processor over ends with `core_sched`; the running
task is ready afterwards because either the switch happens, to the head of the
best list, or the scheduler is locked and the service did not touch the running
task (`Keeps`).
-/

namespace Rhino

namespace Kernel

variable {k k' : Kernel}

/-- The kernel between two calls. -/
structure Inv (k : Kernel) : Prop where
  sched : k.SchedInv
  active_rdy : k.IsRdy k.activeTask
  not_intrpt : k.intrptNested = 0

theorem coreSched_of_locked (hl : 0 < k.schedLock) : k.coreSched = k := by
  unfold Kernel.coreSched
  by_cases hi : 0 < k.intrptNested
  · rw [if_pos hi]
  · rw [if_neg hi, if_pos hl]

/-- Unlocked and outside interrupts, `core_sched` runs the head of the list at
`highest_pri`. -/
theorem coreSched_activeTask {t : Nat} {rest : List Nat} (hi : k.intrptNested = 0)
    (hl : k.schedLock = 0) (hq : k.readyQueue.curListItem k.readyQueue.highestPri = t :: rest) :
    k.coreSched.activeTask = t := by
  unfold Kernel.coreSched Kernel.preferredCpuReadyTaskGet
  simp only [hi, hl, Nat.lt_irrefl, if_false, hq]
  by_cases ha : t = k.activeTask <;> simp [ha]

@[simp] theorem coreSched_intrptNested : k.coreSched.intrptNested = k.intrptNested := by
  obtain ⟨a, p, hc⟩ := k.coreSched_eq
  rw [hc]

@[simp] theorem isRdy_coreSched {u : Nat} : k.coreSched.IsRdy u ↔ k.IsRdy u := by
  simp [IsRdy]

/-- `core_sched` ends in a state of the invariant when the running task is ready
or the scheduler is unlocked. -/
theorem SchedInv.coreSched_inv (h : k.SchedInv) (hi : k.intrptNested = 0)
    (ha : 0 < k.schedLock → k.IsRdy k.activeTask) : k.coreSched.Inv where
  sched := (SchedInvR.coreSched h).toSchedInv fun _ => isRdy_coreSched
  active_rdy := by
    rcases Nat.eq_zero_or_pos k.schedLock with hl | hl
    · obtain ⟨t, rest, hq, ht, -⟩ := h.ready.head ⟨idleTask, h.idle_mem⟩
      rw [coreSched_activeTask hi hl hq, isRdy_coreSched]
      exact ht
    · rw [coreSched_of_locked hl]
      exact ha hl
  not_intrpt := by rw [coreSched_intrptNested, hi]

theorem Inv.of_keeps (h : k.Inv) (h' : k'.SchedInv) (hk : Keeps k k') : k'.Inv where
  sched := h'
  active_rdy := hk.active ▸ hk.rdy _ h.active_rdy
  not_intrpt := hk.intrpt ▸ h.not_intrpt

theorem Inv.coreSched (h : k.Inv) : k.coreSched.Inv :=
  h.sched.coreSched_inv h.not_intrpt fun _ => h.active_rdy

/-- A service that touched no ready task and then calls `core_sched`. -/
theorem Inv.coreSched_keeps (h : k.Inv) (h' : k'.SchedInv) (hk : Keeps k k') : k'.coreSched.Inv :=
  (h.of_keeps h' hk).coreSched

/-- A service that blocks the running task `a`, which is not the idle task, with
the scheduler unlocked. -/
theorem Inv.block (h : k.Inv) {a : Nat} (ha : a = k.activeTask) (hidle : a ≠ idleTask)
    (hl : k.schedLock = 0) (r : ObjRef) (ticks : Nat) : (k.pendToBlkObj r a ticks).coreSched.Inv := by
  subst ha
  have hf := frame_pendToBlkObj (k := k) r k.activeTask ticks
  refine (h.sched.pendToBlkObj h.active_rdy hidle r ticks).coreSched_inv (hf.intrpt ▸ h.not_intrpt)
    fun hpos => absurd (hf.lock ▸ hpos) (by omega)

/-- A service that changed the state of `t` alone, where `t` is not the running
task if the scheduler is locked, and then calls `core_sched`. -/
theorem Inv.coreSched_other (h : k.Inv) (h' : k'.SchedInv) (hf : Frame k k') {t : Nat}
    (hrdy : ∀ u, u ≠ t → k.IsRdy u → k'.IsRdy u) (hguard : ¬(t = k.activeTask ∧ 0 < k.schedLock)) :
    k'.coreSched.Inv :=
  h'.coreSched_inv (hf.intrpt ▸ h.not_intrpt) fun hpos =>
    hf.active ▸ hrdy _ (fun he => hguard ⟨he.symm, hf.lock ▸ hpos⟩) h.active_rdy

/-- The scheduler's globals may be set to anything that keeps the running task
and the interrupt nesting. -/
theorem Inv.setSchedLock (h : k.Inv) (n : Nat) : ({ k with schedLock := n } : Kernel).Inv where
  sched := h.sched.congr (fun _ => ⟨rfl, rfl, rfl⟩) rfl rfl (fun r => by cases r <;> rfl) (fun _ => rfl)
  active_rdy := h.active_rdy
  not_intrpt := h.not_intrpt

/-! ### The invariant through the steps that keep the running task -/

theorem Inv.setTask_of (h : k.Inv) {t : Nat} {f : KTask → KTask}
    (hs : (f (k.tasks t)).taskState = (k.tasks t).taskState)
    (hp : (f (k.tasks t)).prio = (k.tasks t).prio) (hb : (f (k.tasks t)).bPrio = (k.tasks t).bPrio) :
    (k.setTask t f).Inv :=
  h.of_keeps (h.sched.setTask_of hs hp hb) (keeps_setTask fun hr => hs.trans hr)

theorem Inv.setMutex (h : k.Inv) {m : Nat} {f : KMutex → KMutex}
    (hl : idleTask ∉ (f (k.mutexes m)).blkObj.blkList)
    (ho : (f (k.mutexes m)).mutexTask ≠ some idleTask) : (k.setMutex m f).Inv :=
  h.of_keeps (h.sched.setMutex hl ho) (keeps_setMutex _ _)

theorem Inv.setSem (h : k.Inv) {s : Nat} {f : KSem → KSem}
    (hl : idleTask ∉ (f (k.sems s)).blkObj.blkList) : (k.setSem s f).Inv :=
  h.of_keeps (h.sched.setSem hl) (keeps_setSem _ _)

theorem Inv.setQueue (h : k.Inv) {q : Nat} {f : KQueue → KQueue}
    (hl : idleTask ∉ (f (k.queues q)).blkObj.blkList) : (k.setQueue q f).Inv :=
  h.of_keeps (h.sched.setQueue hl) (keeps_setQueue _ _)

theorem Inv.setBufQueue (h : k.Inv) {q : Nat} {f : KBufQueue → KBufQueue}
    (hl : idleTask ∉ (f (k.bufQueues q)).blkObj.blkList) : (k.setBufQueue q f).Inv :=
  h.of_keeps (h.sched.setBufQueue hl) (keeps_setBufQueue _ _)

theorem Inv.setEvent (h : k.Inv) {e : Nat} {f : KEvent → KEvent}
    (hl : idleTask ∉ (f (k.events e)).blkObj.blkList) : (k.setEvent e f).Inv :=
  h.of_keeps (h.sched.setEvent hl) (keeps_setEvent _ _)

/-- Writing an object without touching its blocked list. -/
theorem Inv.setSem_of (h : k.Inv) {s : Nat} {f : KSem → KSem}
    (hf : ∀ x, (f x).blkObj.blkList = x.blkObj.blkList) : (k.setSem s f).Inv :=
  h.setSem (by rw [hf]; exact h.sched.idle_not_blocked (.sem s))

theorem Inv.setQueue_of (h : k.Inv) {q : Nat} {f : KQueue → KQueue}
    (hf : ∀ x, (f x).blkObj.blkList = x.blkObj.blkList) : (k.setQueue q f).Inv :=
  h.setQueue (by rw [hf]; exact h.sched.idle_not_blocked (.queue q))

theorem Inv.setBufQueue_of (h : k.Inv) {q : Nat} {f : KBufQueue → KBufQueue}
    (hf : ∀ x, (f x).blkObj.blkList = x.blkObj.blkList) : (k.setBufQueue q f).Inv :=
  h.setBufQueue (by rw [hf]; exact h.sched.idle_not_blocked (.bufQueue q))

theorem Inv.setEvent_of (h : k.Inv) {e : Nat} {f : KEvent → KEvent}
    (hf : ∀ x, (f x).blkObj.blkList = x.blkObj.blkList) : (k.setEvent e f).Inv :=
  h.setEvent (by rw [hf]; exact h.sched.idle_not_blocked (.event e))

theorem Inv.pendTaskEnd (h : k.Inv) (t : Nat) (st : BlkState) : (k.pendTaskEnd t st).Inv :=
  h.of_keeps (h.sched.pendTaskEnd t st) (keeps_pendTaskEnd t st)

theorem Inv.mutexRelease (h : k.Inv) {t : Nat} (hidle : t ≠ idleTask) (rel : Option Nat) :
    (k.mutexRelease t rel).Inv :=
  h.of_keeps (h.sched.mutexRelease hidle rel) (keeps_mutexRelease t rel)

theorem Inv.pendTaskRmAll (h : k.Inv) (l : List Nat) : (k.pendTaskRmAll l).Inv :=
  h.of_keeps (h.sched.pendTaskRmAll l) (keeps_pendTaskRmAll l)

theorem Inv.pendTaskWakeupAll (h : k.Inv) (l : List Nat) : (k.pendTaskWakeupAll l).Inv :=
  h.of_keeps (h.sched.pendTaskWakeupAll l) (keeps_pendTaskWakeupAll l)

theorem Inv.taskMsgRecv (h : k.Inv) (t p : Nat) : (k.taskMsgRecv t p).Inv :=
  h.of_keeps (h.sched.taskMsgRecv t p) (keeps_taskMsgRecv t p)

theorem Inv.taskMsgRecvAll (h : k.Inv) (p : Nat) (l : List Nat) : (k.taskMsgRecvAll p l).Inv :=
  h.of_keeps (h.sched.taskMsgRecvAll p l) (keeps_taskMsgRecvAll p l)

theorem Inv.eventSetWake (h : k.Inv) (e : Nat) (cur : UInt32) (l : List Nat) :
    (k.eventSetWake e cur l).Inv :=
  h.of_keeps (h.sched.eventSetWake e cur l) (keeps_eventSetWake e cur l)

/-- The head of a blocked list is not the idle task. -/
theorem Inv.ne_idle_of_head (h : k.Inv) {r : ObjRef} {w : Nat} {ws : List Nat}
    (hl : (k.blkObj r).blkList = w :: ws) : w ≠ idleTask := fun he =>
  h.sched.idle_not_blocked r (by rw [hl, ← he]; exact List.mem_cons_self)

/-! ### Task services -/

theorem Inv.taskCreate (h : k.Inv) {t : Nat} (ht : ¬k.IsRdy t) (prio ticks flag : Nat)
    (autorun : Bool) : (k.taskCreate t prio ticks flag autorun).1.Inv := by
  unfold Kernel.taskCreate
  by_cases hp : prio ≥ rhinoConfigPriMax
  · rw [if_pos hp]
    exact h
  rw [if_neg hp]
  by_cases hi : 0 < k.intrptNested
  · rw [if_pos hi]
    exact h
  rw [if_neg hi]
  -- the idle task exists already: a second one is refused
  by_cases he : prio = rhinoIdlePri
  · rw [if_pos ⟨he, h.sched.idle_spawned⟩]
    exact h
  rw [if_neg fun hh => he hh.1, if_neg he]
  have hp' : prio < rhinoConfigPriMax := by omega
  cases autorun with
  | false =>
    simp only [Bool.false_eq_true, if_false]
    refine h.of_keeps (h.sched.setTask_unqueued ht (by simp) hp' hp') (keeps_setTask fun hr => absurd hr ht)
  | true =>
    simp only [if_true]
    have h₁ := (h.sched.setTask (t := t) (f := fun _ => { KTask.zero with
      timeTotal := if 0 < ticks then ticks else rhinoConfigTimeSliceDefault,
      timeSlice := if 0 < ticks then ticks else rhinoConfigTimeSliceDefault, schedPolicy := .rr,
      taskState := .rdy, suspendCount := 0, prio := prio, bPrio := prio, mmAllocFlag := flag })
      (fun hr => absurd hr ht) hp' hp' (fun hi' => absurd hi' (h.sched.ne_idle ht))).readyListAddTail ht
    refine h.coreSched_keeps (h₁.toSchedInv fun u => ?_) ((keeps_setTask fun hr => absurd hr ht).trans
      (keeps_readyListAddTail t))
    by_cases hu : u = t <;> simp [hu]

theorem Inv.krhinoTaskCreate (h : k.Inv) {t : Nat} (ht : ¬k.IsRdy t) (prio ticks : Nat)
    (autorun : Bool) : (k.krhinoTaskCreate t prio ticks autorun).1.Inv :=
  h.taskCreate ht prio ticks kObjStaticAlloc autorun

theorem Inv.krhinoTaskSleep (h : k.Inv) (ha : k.activeTask ≠ idleTask) (ticks : Nat) :
    (k.krhinoTaskSleep ticks).1.Inv := by
  unfold Kernel.krhinoTaskSleep
  split_ifs with h0 hi hl
  · exact h
  · exact h
  · exact h
  -- the running task sleeps: off the ready queue, on the tick list
  have h₁ := ((h.sched.setTask (t := k.activeTask) (f := fun task => { task with taskState := .sleep })
    (fun _ => rfl) (h.sched.prio_lt _) (h.sched.bPrio_lt _) (fun hi' => absurd hi' ha)).tickListInsert
    k.activeTask ticks).readyListRm h.active_rdy ha
  have hf : Frame k (((k.setTask k.activeTask fun task => { task with taskState := .sleep }).tickListInsert
      k.activeTask ticks).readyListRm k.activeTask) :=
    ((frame_setTask _ _).trans (keeps_tickListInsert _ _).toFrame).trans (keeps_readyListRm _).toFrame
  refine SchedInv.coreSched_inv (h₁.toSchedInv fun u => ?_) (hf.intrpt ▸ h.not_intrpt)
    fun hpos => absurd (hf.lock ▸ hpos) hl
  by_cases hu : u = k.activeTask <;> simp [hu]

theorem Inv.krhinoTaskYield (h : k.Inv) : k.krhinoTaskYield.1.Inv :=
  h.coreSched_keeps (h.sched.readyListHeadToTail k.activeTask) (keeps_readyListHeadToTail _)

theorem Inv.krhinoTaskSuspend (h : k.Inv) (t : Nat) : (k.krhinoTaskSuspend t).1.Inv := by
  unfold Kernel.krhinoTaskSuspend
  split
  · exact h
  rename_i hprio
  have hidle : t ≠ idleTask := fun hi => hprio (hi ▸ h.sched.idle_prio)
  unfold Kernel.taskSuspend
  split
  · exact h
  rename_i hguard
  cases hs : (k.tasks t).taskState with
  | rdy =>
    -- a ready task leaves the ready queue
    simp only []
    have h₁ := (h.sched.setTask (t := t)
      (f := fun task => { task with suspendCount := 1, taskState := .suspended }) (fun _ => rfl)
      (h.sched.prio_lt t) (h.sched.bPrio_lt t) (fun hi => absurd hi hidle)).readyListRm hs hidle
    refine h.coreSched_other (h₁.toSchedInv fun u => ?_)
      ((frame_setTask _ _).trans (keeps_readyListRm t).toFrame) (fun u hu hr => ?_) hguard
    · by_cases hu : u = t <;> simp [hu]
    · simpa [hu] using hr
  | sleep =>
    simp only []
    exact h.coreSched_keeps (h.sched.setTask_unqueued (by simp [IsRdy, hs]) (by simp) (h.sched.prio_lt t)
      (h.sched.bPrio_lt t)) (keeps_setTask fun hr => absurd hr (by simp [hs]))
  | pend =>
    simp only []
    exact h.coreSched_keeps (h.sched.setTask_unqueued (by simp [IsRdy, hs]) (by simp) (h.sched.prio_lt t)
      (h.sched.bPrio_lt t)) (keeps_setTask fun hr => absurd hr (by simp [hs]))
  | suspended | sleepSuspended | pendSuspended =>
    -- one more level of suspension, or the counter is full
    by_cases hc : (k.tasks t).suspendCount = suspendNestedMax
    · simp only [hc, if_true]
      exact h
    · simp only [hc, if_false]
      have hk : Keeps k (k.setTask t fun task => { task with suspendCount := task.suspendCount + 1 }) :=
        keeps_setTask id
      exact h.coreSched_keeps (h.sched.setTask_of rfl rfl rfl) hk
  | seed | deleted => exact h

theorem Inv.krhinoTaskResume (h : k.Inv) (t : Nat) : (k.krhinoTaskResume t).1.Inv := by
  unfold Kernel.krhinoTaskResume
  dsimp only
  generalize ((k.tasks t).suspendCount + suspendNestedMax) % (suspendNestedMax + 1) = count
  have hdec : (k.setTask t fun task => { task with suspendCount := count }).Inv :=
    h.of_keeps (h.sched.setTask_of rfl rfl rfl) (keeps_setTask id)
  cases hs : (k.tasks t).taskState with
  | rdy | sleep | pend | seed | deleted => exact h
  | suspended =>
    -- the last resume makes the task ready and queues it
    simp only []
    split
    · refine h.coreSched_keeps (hdec.sched.setRdy_readyListAdd (by simp [IsRdy, hs]) rfl rfl rfl) ?_
      have hk : Keeps k (k.setTask t fun task => { task with suspendCount := count }) := keeps_setTask id
      exact hk.trans ((keeps_setTask fun _ => rfl).trans (keeps_readyListAdd t))
    · exact hdec.coreSched
  | sleepSuspended | pendSuspended =>
    simp only []
    split
    · refine hdec.coreSched_keeps (hdec.sched.setTask_unqueued (by simp [IsRdy, hs]) (by simp)
        (hdec.sched.prio_lt t) (hdec.sched.bPrio_lt t)) (keeps_setTask fun hr => absurd hr (by simp [hs]))
    · exact hdec.coreSched

theorem Inv.krhinoTaskPriChange (h : k.Inv) (t pri : Nat) : (k.krhinoTaskPriChange t pri).1.Inv := by
  unfold Kernel.krhinoTaskPriChange
  split_ifs with hp hpri hdel hi
  · exact h
  · exact h
  · exact h
  · exact h
  -- the idle task has `RHINO_IDLE_PRI` and is refused above
  have hidle : t ≠ idleTask := fun he => hp (he ▸ h.sched.idle_prio.ge)
  have hlim : k.mutexPriLimit t pri < rhinoConfigPriMax :=
    lt_of_le_of_lt (k.mutexPriLimit_le t pri) (by unfold rhinoIdlePri at hpri; omega)
  have hb : pri < rhinoConfigPriMax := by unfold rhinoIdlePri at hpri; omega
  have h₁ : (k.setTask t fun task => { task with bPrio := pri }).Inv := by
    refine h.of_keeps ((h.sched.setTask (t := t) (f := fun task => { task with bPrio := pri })
      (fun _ => rfl) (h.sched.prio_lt t) hb (fun he => absurd he hidle)).toSchedInv fun u => ?_)
      (keeps_setTask id)
    by_cases hu : u = t <;> simp [hu, IsRdy]
  have h₂ : ((k.setTask t fun task => { task with bPrio := pri }).taskPriChange t
      (k.mutexPriLimit t pri)).1.Inv :=
    h₁.of_keeps (h₁.sched.taskPriChangeLoop _ hidle hlim) (keeps_taskPriChangeLoop _ _ _ _)
  dsimp only
  -- an error of the loop is returned as it is, without `core_sched`
  split
  · exact h₂
  · exact h₂.coreSched

theorem Inv.krhinoTaskWaitAbort (h : k.Inv) (t : Nat) : (k.krhinoTaskWaitAbort t).1.Inv := by
  unfold Kernel.krhinoTaskWaitAbort
  split
  · exact h
  cases hs : (k.tasks t).taskState with
  | seed | deleted => exact h
  | rdy => exact h.coreSched
  | suspended =>
    simp only []
    refine h.coreSched_keeps (h.sched.setRdy_readyListAdd (by simp [IsRdy, hs]) rfl rfl rfl) ?_
    exact (keeps_setTask fun _ => rfl).trans (keeps_readyListAdd t)
  | sleep | sleepSuspended =>
    -- off the tick list, queued and ready with `BLK_ABORT`
    simp only []
    have ht : ¬(k.tickListRm t).IsRdy t := by simp [IsRdy, hs]
    refine h.coreSched_keeps ((h.sched.tickListRm t).readyListAdd_setRdy ht rfl (by simp) (by simp)) ?_
    exact ((keeps_tickListRm t).trans (keeps_readyListAdd t)).trans (keeps_setTask fun _ => rfl)
  | pend | pendSuspended =>
    -- off both lists, queued and ready; the mutex owner may give back the priority
    simp only []
    have ht : ¬((k.tickListRm t).blkListRm t).IsRdy t := by simp [IsRdy, hs]
    have h₁ := ((h.sched.tickListRm t).blkListRm t).readyListAdd_setRdy (f := fun task =>
      { task with taskState := .rdy, blkState := .abort }) ht rfl (by simp) (by simp)
    have hk : Keeps k ((((k.tickListRm t).blkListRm t).readyListAdd t).setTask t fun task =>
        { task with taskState := .rdy, blkState := .abort }) :=
      (((keeps_tickListRm t).trans (keeps_blkListRm t)).trans (keeps_readyListAdd t)).trans
        (keeps_setTask fun _ => rfl)
    exact h.coreSched_keeps ((h₁.mutexTaskPriReset t).setTask_of rfl rfl rfl)
      ((hk.trans (keeps_mutexTaskPriReset t)).trans (keeps_setTask id))

/-- The switch of `krhino_task_del`, and the switch of tasks after it, keep the
invariant for a task other than the idle task that is not running under a locked
scheduler. -/
theorem Inv.taskDelSwitch (h : k.Inv) {t : Nat} (hidle : t ≠ idleTask)
    (hguard : ¬(t = k.activeTask ∧ 0 < k.schedLock)) {k₂ : Kernel} (he : k.taskDelSwitch t = some k₂) :
    k₂.coreSched.Inv := by
  unfold Kernel.taskDelSwitch at he
  cases hs : (k.tasks t).taskState with
  | seed | deleted => simp [hs] at he
  | rdy =>
    -- a ready task leaves the ready queue
    simp only [hs, Option.some.injEq] at he
    subst he
    have h₂ := (h.sched.readyListRm hs hidle).setTask (t := t)
      (f := fun task => { task with taskState := .deleted }) (fun hr => absurd rfl hr.2)
      (by simpa using h.sched.prio_lt t) (by simpa using h.sched.bPrio_lt t) (fun he => absurd he hidle)
    refine h.coreSched_other (h₂.toSchedInv fun u => ?_)
      ((keeps_readyListRm t).toFrame.trans (frame_setTask _ _)) (fun u hu hr => ?_) hguard
    · by_cases hu : u = t <;> simp [hu]
    · simpa [hu] using hr
  | suspended =>
    simp only [hs, Option.some.injEq] at he
    subst he
    exact h.coreSched_keeps (h.sched.setTask_unqueued (by simp [IsRdy, hs]) (by simp) (h.sched.prio_lt t)
      (h.sched.bPrio_lt t)) (keeps_setTask fun hr => absurd hr (by simp [hs]))
  | sleep | sleepSuspended =>
    simp only [hs, Option.some.injEq] at he
    subst he
    have ht : ¬(k.tickListRm t).IsRdy t := by simp [IsRdy, hs]
    have h₂ := (h.sched.tickListRm t).setTask_unqueued (t := t)
      (f := fun task => { task with taskState := .deleted }) ht (by simp)
      (by simpa using h.sched.prio_lt t) (by simpa using h.sched.bPrio_lt t)
    exact h.coreSched_keeps h₂ ((keeps_tickListRm t).trans (keeps_setTask fun hr => absurd hr ht))
  | pend | pendSuspended =>
    -- off both lists; the owner of a mutex it waited for may give back the priority
    simp only [hs, Option.some.injEq] at he
    subst he
    have ht : ¬((k.tickListRm t).blkListRm t).IsRdy t := by simp [IsRdy, hs]
    have h₂ := ((h.sched.tickListRm t).blkListRm t).setTask_unqueued (t := t)
      (f := fun task => { task with taskState := .deleted }) ht (by simp)
      (by simpa using h.sched.prio_lt t) (by simpa using h.sched.bPrio_lt t)
    have hk : Keeps k (((k.tickListRm t).blkListRm t).setTask t fun task =>
        { task with taskState := .deleted }) :=
      ((keeps_tickListRm t).trans (keeps_blkListRm t)).trans (keeps_setTask fun hr => absurd hr ht)
    exact h.coreSched_keeps (h₂.mutexTaskPriReset t) (hk.trans (keeps_mutexTaskPriReset t))

theorem Inv.krhinoTaskDel (h : k.Inv) (t : Nat) : (k.krhinoTaskDel t).1.Inv := by
  unfold Kernel.krhinoTaskDel
  split_ifs with hi hprio hstatic hguard
  · exact h
  · exact h
  · exact h
  · exact h
  have hidle : t ≠ idleTask := fun he => hprio (he ▸ h.sched.idle_prio)
  -- the mutexes go first; the state split works on what `task_mutex_free` left
  have hk₁ := keeps_taskMutexFree (k := k) t
  have h₁ := h.of_keeps (h.sched.taskMutexFree t) hk₁
  have hguard₁ : ¬(t = (k.taskMutexFree t).activeTask ∧ 0 < (k.taskMutexFree t).schedLock) := by
    rw [hk₁.active, hk₁.lock]
    exact hguard
  dsimp only
  generalize k.taskMutexFree t = k₁ at h₁ hguard₁ ⊢
  cases he : k₁.taskDelSwitch t with
  | none => exact h₁
  | some k₂ => exact h₁.taskDelSwitch hidle hguard₁ he

theorem Inv.krhinoSchedDisable (h : k.Inv) : k.krhinoSchedDisable.1.Inv := by
  unfold Kernel.krhinoSchedDisable
  split_ifs
  · exact h
  · exact h
  · exact h.setSchedLock _

theorem Inv.krhinoSchedEnable (h : k.Inv) : k.krhinoSchedEnable.1.Inv := by
  unfold Kernel.krhinoSchedEnable
  split_ifs
  · exact h
  · exact h
  -- the switch is requested only when the lock reaches zero
  dsimp only
  split
  · exact h.setSchedLock _
  · exact (h.setSchedLock _).coreSched_keeps (h.setSchedLock _).sched (Keeps.refl _)

/-- `krhino_intrpt_exit` is `core_sched` one nesting level out. -/
theorem krhinoIntrptExit_eq (k : Kernel) :
    k.krhinoIntrptExit = ({ k with intrptNested := k.intrptNested - 1 } : Kernel).coreSched :=
  rfl

/-- The tick interrupt: the tick list and the time slice are served at nesting
level one, and leaving the interrupt switches to the preferred task. -/
theorem Inv.tick (h : k.Inv) : k.krhinoIntrptEnter.krhinoTickProc.krhinoIntrptExit.Inv := by
  have h₁ : k.krhinoIntrptEnter.SchedInv :=
    h.sched.congr (fun _ => ⟨rfl, rfl, rfl⟩) rfl rfl (fun r => by cases r <;> rfl) (fun _ => rfl)
  have hk : Keeps k.krhinoIntrptEnter k.krhinoIntrptEnter.krhinoTickProc :=
    (keeps_tickListUpdate 1).trans keeps_timeSliceUpdate
  have h₂ := (h₁.tickListUpdate 1).timeSliceUpdate
  rw [krhinoIntrptExit_eq]
  refine Inv.coreSched ⟨?_, ?_, ?_⟩
  · exact h₂.congr (fun _ => ⟨rfl, rfl, rfl⟩) rfl rfl (fun r => by cases r <;> rfl) (fun _ => rfl)
  · exact hk.active ▸ hk.rdy _ h.active_rdy
  · show k.krhinoIntrptEnter.krhinoTickProc.intrptNested - 1 = 0
    rw [hk.intrpt]
    simp [krhinoIntrptEnter, h.not_intrpt]

/-! ### Mutexes -/

theorem Inv.krhinoMutexCreate (h : k.Inv) (m : Nat) : (k.krhinoMutexCreate m).Inv :=
  h.setMutex List.not_mem_nil (by simp)

theorem Inv.krhinoMutexLock (h : k.Inv) (ha : k.activeTask ≠ idleTask) (m ticks : Nat) :
    (k.krhinoMutexLock m ticks).1.Inv := by
  unfold Kernel.krhinoMutexLock
  dsimp only
  by_cases hi : 0 < k.intrptNested
  · rw [if_pos hi]
    exact h
  rw [if_neg hi]
  by_cases htype : (k.mutexes m).blkObj.objType ≠ .mutex
  · rw [if_pos htype]
    exact h
  rw [if_neg htype]
  by_cases howned : (k.mutexes m).mutexTask = some k.activeTask
  · -- one more nesting level of the owner, or the counter is full
    rw [if_pos howned]
    split
    · exact h
    · dsimp only
      exact h.setMutex (h.sched.idle_not_blocked (.mutex m)) (h.sched.idle_not_owner m)
  rw [if_neg howned]
  split
  · -- a free mutex: the running task takes it
    dsimp only
    exact (h.setMutex (h.sched.idle_not_blocked (.mutex m))
      (fun he => ha (Option.some_injective _ he))).setTask_of rfl rfl rfl
  · rename_i o howner
    have ho : o ≠ idleTask := fun he => h.sched.idle_not_owner m (he ▸ howner)
    by_cases hw : ticks = rhinoNoWait
    · rw [if_pos hw]
      exact h
    rw [if_neg hw]
    by_cases hl : 0 < k.schedLock
    · rw [if_pos hl]
      exact h
    rw [if_neg hl]
    split
    · -- priority inheritance: the owner takes the waiter's priority, then the waiter blocks
      have hk := keeps_taskPriChangeLoop (2 * k.blocked.length + 2) k o k.active.prio
      have h₁ := h.of_keeps (h.sched.taskPriChangeLoop _ ho (h.sched.prio_lt _)) hk
      exact h₁.block hk.active.symm ha (hk.lock.trans (by omega)) _ _
    · exact h.block rfl ha (by omega) _ _

theorem Inv.krhinoMutexUnlock (h : k.Inv) (m : Nat) : (k.krhinoMutexUnlock m).1.Inv := by
  unfold Kernel.krhinoMutexUnlock
  dsimp only
  by_cases hi : 0 < k.intrptNested
  · rw [if_pos hi]
    exact h
  rw [if_neg hi]
  by_cases htype : (k.mutexes m).blkObj.objType ≠ .mutex
  · rw [if_pos htype]
    exact h
  rw [if_neg htype]
  by_cases hown : (k.mutexes m).mutexTask ≠ some k.activeTask
  · rw [if_pos hown]
    exact h
  rw [if_neg hown]
  have ha : k.activeTask ≠ idleTask := fun he => h.sched.idle_not_owner m (he ▸ not_not.mp hown)
  have h₁ := h.setMutex (m := m) (f := fun mx => { mx with ownerNested :=
    ((k.mutexes m).ownerNested + mutexNestedMax) % (mutexNestedMax + 1) })
    (h.sched.idle_not_blocked (.mutex m)) (h.sched.idle_not_owner m)
  split
  · exact h₁
  -- the last level: the lent priority goes, and the first waiter takes the mutex
  have h₂ := h₁.mutexRelease ha (some m)
  split
  · dsimp only
    exact h₂.setMutex (h₂.sched.idle_not_blocked (.mutex m)) (by simp)
  · rename_i w ws hl
    have hw : w ≠ idleTask := h₂.ne_idle_of_head (r := .mutex m) hl
    have h₃ := h₂.pendTaskEnd w .finish
    exact ((h₃.setMutex (h₃.sched.idle_not_blocked (.mutex m))
      (fun he => hw (Option.some_injective _ he))).setTask_of rfl rfl rfl).coreSched

theorem Inv.krhinoMutexDel (h : k.Inv) (m : Nat) : (k.krhinoMutexDel m).1.Inv := by
  unfold Kernel.krhinoMutexDel
  split_ifs with hi htype
  · exact h
  · exact h
  dsimp only
  have h₁ := h.setMutex (m := m) (f := fun mx => { mx with blkObj := { mx.blkObj with objType := .none } })
    (h.sched.idle_not_blocked (.mutex m)) (h.sched.idle_not_owner m)
  -- the owner gives up what the waiters lent it, then every waiter is woken
  split
  · rename_i o howner
    have ho : o ≠ idleTask := fun he => h₁.sched.idle_not_owner m (he ▸ howner)
    exact ((h₁.mutexRelease ho (some m)).pendTaskRmAll _).coreSched
  · exact (h₁.pendTaskRmAll _).coreSched

/-! ### Buffer queues -/

theorem Inv.bufQueueCreate (h : k.Inv) (q : Nat) (mem : Nat → UInt8) (size maxMsg : Nat)
    (type : RingbufType) : (k.bufQueueCreate q mem size maxMsg type).1.Inv := by
  unfold Kernel.bufQueueCreate
  split
  · exact h
  split
  · exact h
  dsimp only
  exact h.setBufQueue (by simp)

theorem Inv.krhinoBufQueueSend (h : k.Inv) (q : Nat) (msg : List UInt8) (size : Nat) :
    (k.krhinoBufQueueSend q msg size).1.Inv := by
  unfold Kernel.krhinoBufQueueSend Kernel.bufQueueSend
  dsimp only
  split
  · exact h
  split
  · exact h
  split
  · exact h
  split
  · -- nobody waits: the message goes into the ring, unless it is full
    split
    · exact h
    · dsimp only
      exact h.setBufQueue_of (by intros; rfl)
  · -- the message goes straight to the first receiver
    exact ((h.setTask_of rfl rfl rfl).pendTaskEnd _ .finish).coreSched

theorem Inv.krhinoBufQueueRecv (h : k.Inv) (ha : k.activeTask ≠ idleTask) (q ticks : Nat) :
    (k.krhinoBufQueueRecv q ticks).1.Inv := by
  unfold Kernel.krhinoBufQueueRecv
  dsimp only
  split
  · exact h
  split
  · exact h
  split
  · dsimp only
    exact h.setBufQueue_of (by intros; rfl)
  split
  · exact h
  split
  · exact h
  · exact h.block rfl ha (by omega) _ _

theorem Inv.krhinoBufQueueFlush (h : k.Inv) (q : Nat) : (k.krhinoBufQueueFlush q).1.Inv := by
  unfold Kernel.krhinoBufQueueFlush
  split
  · exact h
  split
  · exact h
  dsimp only
  exact h.setBufQueue_of (by intros; rfl)

theorem Inv.krhinoBufQueueDel (h : k.Inv) (q : Nat) : (k.krhinoBufQueueDel q).1.Inv := by
  unfold Kernel.krhinoBufQueueDel
  split
  · exact h
  split
  · exact h
  dsimp only
  exact Inv.coreSched (((h.setBufQueue_of (by intros; rfl)).pendTaskRmAll _).setBufQueue_of (by intros; rfl))

/-! ### Semaphores -/

theorem Inv.krhinoSemCreate (h : k.Inv) (s count : Nat) : (k.krhinoSemCreate s count).Inv :=
  h.setSem (by simp)

theorem Inv.krhinoSemDel (h : k.Inv) (s : Nat) : (k.krhinoSemDel s).1.Inv := by
  unfold Kernel.krhinoSemDel
  split
  · exact h
  split
  · exact h
  dsimp only
  exact Inv.coreSched ((h.setSem_of (by intros; rfl)).pendTaskRmAll _)

theorem Inv.semGive (h : k.Inv) (s : Nat) (wakeAll : Bool) : (k.semGive s wakeAll).1.Inv := by
  unfold Kernel.semGive
  dsimp only
  split
  · exact h
  split
  · -- nobody waits: the count goes up, unless it is full
    split
    · exact h
    · dsimp only
      exact h.setSem_of (by intros; rfl)
  · -- the unit goes to the first waiter, or to all of them
    split
    · exact (h.pendTaskWakeupAll _).coreSched
    · exact (h.pendTaskEnd _ .finish).coreSched

theorem Inv.krhinoSemTake (h : k.Inv) (ha : k.activeTask ≠ idleTask) (s ticks : Nat) :
    (k.krhinoSemTake s ticks).1.Inv := by
  unfold Kernel.krhinoSemTake
  split
  · exact h
  split
  · exact h
  split
  · dsimp only
    exact h.setSem_of (by intros; rfl)
  split
  · exact h
  split
  · exact h
  · exact h.block rfl ha (by omega) _ _

theorem Inv.krhinoSemCountSet (h : k.Inv) (s count : Nat) : (k.krhinoSemCountSet s count).1.Inv := by
  unfold Kernel.krhinoSemCountSet
  split
  · exact h
  split
  · exact h
  split
  · exact h
  dsimp only
  exact h.setSem_of (by intros; rfl)

/-! ### Message queues -/

theorem Inv.krhinoQueueCreate (h : k.Inv) (q : Nat) (start : Nat → UInt8) (msgNum : Nat) :
    (k.krhinoQueueCreate q start msgNum).1.Inv := by
  unfold Kernel.krhinoQueueCreate
  split
  · exact h
  dsimp only
  exact h.setQueue (by simp)

theorem Inv.krhinoQueueDel (h : k.Inv) (q : Nat) : (k.krhinoQueueDel q).1.Inv := by
  unfold Kernel.krhinoQueueDel
  split
  · exact h
  split
  · exact h
  dsimp only
  exact Inv.coreSched (((h.setQueue_of (by intros; rfl)).pendTaskRmAll _).setQueue_of (by intros; rfl))

theorem Inv.msgSend (h : k.Inv) (q p : Nat) (wakeAll : Bool) : (k.msgSend q p wakeAll).1.Inv := by
  unfold Kernel.msgSend
  dsimp only
  split
  · exact h
  split
  · exact h
  split
  · dsimp only
    exact h.setQueue_of (by intros; rfl)
  · split
    · exact (h.taskMsgRecvAll p _).coreSched
    · exact (h.taskMsgRecv _ p).coreSched

theorem Inv.krhinoQueueRecv (h : k.Inv) (ha : k.activeTask ≠ idleTask) (q ticks : Nat) :
    (k.krhinoQueueRecv q ticks).1.Inv := by
  unfold Kernel.krhinoQueueRecv
  dsimp only
  split
  · exact h
  split
  · exact h
  split
  · dsimp only
    exact h.setQueue_of (by intros; rfl)
  split
  · exact h
  split
  · exact h
  · exact h.block rfl ha (by omega) _ _

theorem Inv.krhinoQueueFlush (h : k.Inv) (q : Nat) : (k.krhinoQueueFlush q).1.Inv := by
  unfold Kernel.krhinoQueueFlush
  split
  · exact h
  split
  · exact h
  dsimp only
  exact h.setQueue_of (by intros; rfl)

/-! ### Event flags -/

theorem Inv.krhinoEventCreate (h : k.Inv) (e : Nat) (flags : UInt32) :
    (k.krhinoEventCreate e flags).Inv :=
  h.setEvent (by simp)

theorem Inv.krhinoEventDel (h : k.Inv) (e : Nat) : (k.krhinoEventDel e).1.Inv := by
  unfold Kernel.krhinoEventDel
  split
  · exact h
  split
  · exact h
  dsimp only
  exact Inv.coreSched (((h.setEvent_of (by intros; rfl)).pendTaskRmAll _).setEvent_of (by intros; rfl))

theorem Inv.krhinoEventGet (h : k.Inv) (ha : k.activeTask ≠ idleTask) (e : Nat) (flags : UInt32)
    (opt ticks : Nat) : (k.krhinoEventGet e flags opt ticks).1.Inv := by
  unfold Kernel.krhinoEventGet
  dsimp only
  split
  · exact h
  split
  · exact h
  split
  · exact h
  split
  · -- the flags are there: they are cleared if asked for
    split
    · dsimp only
      exact h.setEvent_of (by intros; rfl)
    · exact h
  split
  · exact h
  split
  · exact h
  -- the running task records what it waits for, then blocks
  exact (h.setTask_of rfl rfl rfl).block rfl ha (show k.schedLock = 0 by omega) _ _

theorem Inv.krhinoEventSet (h : k.Inv) (e : Nat) (flags : UInt32) (opt : Nat) :
    (k.krhinoEventSet e flags opt).1.Inv := by
  unfold Kernel.krhinoEventSet Kernel.eventSet
  dsimp only
  split
  · exact h
  split
  · exact h
  split
  · dsimp only
    exact h.setEvent_of (by intros; rfl)
  exact Inv.coreSched ((h.setEvent_of (by intros; rfl)).eventSetWake _ _ _)

/-! ### The first state -/

/-- The idle task's control block as `krhino_init` leaves it. -/
theorem krhinoInit_eq :
    krhinoInit =
      (({ zero with
          readyQueue := ⟨fun _ => [], fun _ => 0, rhinoConfigPriMax⟩
          idleTaskSpawned := true }.setTask idleTask fun _ =>
        { KTask.zero with
          timeTotal := rhinoConfigTimeSliceDefault
          timeSlice := rhinoConfigTimeSliceDefault
          schedPolicy := .rr
          taskState := .rdy
          suspendCount := 0
          prio := rhinoIdlePri
          bPrio := rhinoIdlePri
          mmAllocFlag := kObjStaticAlloc }).readyListAddTail idleTask).coreSched :=
  rfl

/-- The idle task queued alone on an empty run queue, with no task waiting and no
mutex held, starts the invariant. -/
theorem SchedInvR.idle_first (hrq : k.readyQueue = ⟨fun _ => [], fun _ => 0, rhinoConfigPriMax⟩)
    (hp : ∀ t, (k.tasks t).prio < rhinoConfigPriMax) (hb : ∀ t, (k.tasks t).bPrio < rhinoConfigPriMax)
    (hrdy : (k.tasks idleTask).taskState = .rdy) (hprio : (k.tasks idleTask).prio = rhinoIdlePri)
    (hsp : k.idleTaskSpawned = true) (hblk : ∀ r, (k.blkObj r).blkList = [])
    (hown : ∀ m, (k.mutexes m).mutexTask = none) :
    (k.readyListAddTail idleTask).SchedInvR (fun u => False ∨ u = idleTask) where
  ready := by
    have h₀ := RunQueue.repr_init (fun t => (k.tasks t).prio)
    rw [← hrq] at h₀
    exact h₀.readyListAddTail (fun h => h) (hp idleTask)
  prio_lt := hp
  bPrio_lt := hb
  idle_mem := Or.inr rfl
  idle_rdy := hrdy
  idle_prio := hprio
  idle_spawned := hsp
  idle_not_blocked r := by
    show idleTask ∉ (k.blkObj r).blkList
    rw [hblk r]
    exact List.not_mem_nil
  idle_not_owner m := by
    show (k.mutexes m).mutexTask ≠ some idleTask
    rw [hown m]
    exact Option.some_ne_none _ ∘ Eq.symm

/-- After `krhino_init`, the idle task alone is ready, queued and running. -/
theorem krhinoInit_inv : krhinoInit.Inv := by
  rw [krhinoInit_eq]
  have hi : ∀ u, u = idleTask ∨ u ≠ idleTask := fun u => em _
  refine SchedInv.coreSched_inv (SchedInvR.toSchedInv (SchedInvR.idle_first rfl ?_ ?_ rfl rfl rfl ?_ ?_) ?_) rfl
    (fun hl => absurd hl (by decide))
  · intro u
    rcases hi u with rfl | hu <;> simp [*, zero, KTask.zero] <;> decide
  · intro u
    rcases hi u with rfl | hu <;> simp [*, zero, KTask.zero] <;> decide
  · intro r
    cases r <;> rfl
  · intro m
    rfl
  · intro u
    rcases hi u with rfl | hu <;> simp [IsRdy, *, zero, KTask.zero]

/-! ### Whole runs -/

/-- What the kernel asks of its callers: a task is created on a control block not
in use, an object on one that no task waits on, and the idle task makes no call
that can block. -/
def callOk (k : Kernel) : KCall → Bool
  | .taskCreate t _ _ _ => (k.tasks t).taskState == .seed || (k.tasks t).taskState == .deleted
  | .taskSleep _ | .mutexLock _ _ | .bufQueueRecv _ _ | .semTake _ _ | .queueRecv _ _
  | .eventGet _ _ _ _ => k.activeTask != idleTask
  | .mutexCreate m => (k.mutexes m).blkObj.blkList.isEmpty
  | .bufQueueCreate q _ _ _ | .fixBufQueueCreate q _ _ _ => (k.bufQueues q).blkObj.blkList.isEmpty
  | .semCreate s _ => (k.sems s).blkObj.blkList.isEmpty
  | .queueCreate q _ _ => (k.queues q).blkObj.blkList.isEmpty
  | .eventCreate e _ => (k.events e).blkObj.blkList.isEmpty
  | _ => true

/-- A created task is not ready yet. -/
theorem not_isRdy_of_callOk {t prio ticks : Nat} {autorun : Bool}
    (hc : k.callOk (.taskCreate t prio ticks autorun) = true) : ¬k.IsRdy t := by
  intro hr
  simp only [callOk, IsRdy] at hc hr
  rw [hr] at hc
  exact absurd hc (by decide)

/-- Every call keeps the invariant. -/
theorem Inv.call (h : k.Inv) (c : KCall) (hc : k.callOk c = true) : (k.call c).1.Inv := by
  -- the calls that can block the caller are those whose guard names the running task
  have ha : k.activeTask != idleTask → k.activeTask ≠ idleTask := by simp
  cases c with
  | taskCreate t prio ticks autorun => exact h.krhinoTaskCreate (not_isRdy_of_callOk hc) prio ticks autorun
  | taskSleep ticks => exact h.krhinoTaskSleep (ha hc) ticks
  | taskYield => exact h.krhinoTaskYield
  | taskSuspend t => exact h.krhinoTaskSuspend t
  | taskResume t => exact h.krhinoTaskResume t
  | taskPriChange t pri => exact h.krhinoTaskPriChange t pri
  | taskWaitAbort t => exact h.krhinoTaskWaitAbort t
  | taskDel t => exact h.krhinoTaskDel t
  | schedDisable => exact h.krhinoSchedDisable
  | schedEnable => exact h.krhinoSchedEnable
  | tick => exact h.tick
  | mutexCreate m => exact h.krhinoMutexCreate m
  | mutexLock m ticks => exact h.krhinoMutexLock (ha hc) m ticks
  | mutexUnlock m => exact h.krhinoMutexUnlock m
  | mutexDel m => exact h.krhinoMutexDel m
  | bufQueueCreate q mem size maxMsg => exact h.bufQueueCreate q mem size maxMsg .dyn
  | fixBufQueueCreate q mem msgSize msgNum => exact h.bufQueueCreate q mem _ msgSize .fix
  | bufQueueSend q msg size => exact h.krhinoBufQueueSend q msg size
  | bufQueueRecv q ticks => exact h.krhinoBufQueueRecv (ha hc) q ticks
  | bufQueueFlush q => exact h.krhinoBufQueueFlush q
  | bufQueueDel q => exact h.krhinoBufQueueDel q
  | semCreate s count => exact h.krhinoSemCreate s count
  | semDel s => exact h.krhinoSemDel s
  | semGive s => exact h.semGive s false
  | semGiveAll s => exact h.semGive s true
  | semTake s ticks => exact h.krhinoSemTake (ha hc) s ticks
  | semCountSet s count => exact h.krhinoSemCountSet s count
  | queueCreate q start msgNum => exact h.krhinoQueueCreate q start msgNum
  | queueDel q => exact h.krhinoQueueDel q
  | queueBackSend q p => exact h.msgSend q p false
  | queueAllSend q p => exact h.msgSend q p true
  | queueRecv q ticks => exact h.krhinoQueueRecv (ha hc) q ticks
  | queueFlush q => exact h.krhinoQueueFlush q
  | eventCreate e flags => exact h.krhinoEventCreate e flags
  | eventDel e => exact h.krhinoEventDel e
  | eventGet e flags opt ticks => exact h.krhinoEventGet (ha hc) e flags opt ticks
  | eventSet e flags opt => exact h.krhinoEventSet e flags opt

/-- The states that some admissible run from `krhino_init` ends in. -/
def Reachable (k : Kernel) : Prop :=
  ∃ cs, Machine.allowed call callOk krhinoInit cs = true ∧ Machine.exec call krhinoInit cs = k

theorem Reachable.inv (hk : k.Reachable) : k.Inv := by
  obtain ⟨cs, hok, rfl⟩ := hk
  exact Machine.exec_invariant_allowed Inv (fun k c h hc => h.call c hc) krhinoInit_inv hok

/-! ### The run queue in a reachable state -/

/-- The bit of a priority, read as the code does with `BITMAP_MASK`, is set exactly
when its list is not empty. -/
theorem bitmap_and_mask_ne_zero_iff {rq : RunQueue} {prio : Nat → Nat} {R : Nat → Prop}
    (h : rq.Repr prio R) {p : Nat} (hp : p < rhinoConfigPriMax) :
    rq.taskBitMap (bitmapWord p) &&& bitmapMask p ≠ 0 ↔ rq.curListItem p ≠ [] := by
  have hw : rhinoConfigPriMax ≤ 32 * numWords := by decide
  rw [show bitmapWord p = p / 32 from rfl, show bitmapMask p = Bitmap.mask p from rfl,
    Bitmap.and_mask_ne_zero_iff, h.bit p (by omega)]
  cases rq.curListItem p <;> simp

/-- The run queue as the scheduler reads it: the bitmap marks the priorities whose
list is not empty, the list of a priority holds once each the ready tasks of that
priority, `highest_pri` is the first marked priority, and the task that
`preferred_cpu_ready_task_get` picks, and `core_sched` runs when it may switch, is
ready with no ready task of a better priority. -/
structure ReadyQueueOk (k : Kernel) : Prop where
  bit_iff : ∀ p < rhinoConfigPriMax,
    k.readyQueue.taskBitMap (bitmapWord p) &&& bitmapMask p ≠ 0 ↔ k.readyQueue.curListItem p ≠ []
  mem_iff : ∀ p < rhinoConfigPriMax, ∀ t,
    t ∈ k.readyQueue.curListItem p ↔ (k.tasks t).taskState = .rdy ∧ (k.tasks t).prio = p
  nodup : ∀ p < rhinoConfigPriMax, (k.readyQueue.curListItem p).Nodup
  highest_set : k.readyQueue.highestPri < rhinoConfigPriMax ∧
    k.readyQueue.taskBitMap (bitmapWord k.readyQueue.highestPri) &&& bitmapMask k.readyQueue.highestPri ≠ 0
  highest_least : ∀ p < k.readyQueue.highestPri,
    k.readyQueue.taskBitMap (bitmapWord p) &&& bitmapMask p = 0
  preferred_rdy : (k.tasks k.preferredCpuReadyTaskGet.preferredTask).taskState = .rdy
  preferred_best : ∀ t, (k.tasks t).taskState = .rdy →
    (k.tasks k.preferredCpuReadyTaskGet.preferredTask).prio ≤ (k.tasks t).prio
  coreSched_runs : k.schedLock = 0 → k.coreSched.activeTask = k.preferredCpuReadyTaskGet.preferredTask

theorem preferredCpuReadyTaskGet_preferredTask {t : Nat} {rest : List Nat}
    (hq : k.readyQueue.curListItem k.readyQueue.highestPri = t :: rest) :
    k.preferredCpuReadyTaskGet.preferredTask = t := by
  unfold Kernel.preferredCpuReadyTaskGet
  rw [hq]

theorem Inv.readyQueueOk (h : k.Inv) : k.ReadyQueueOk := by
  have hr := h.sched.ready
  obtain ⟨t, rest, hq, ht, hbest⟩ := hr.head ⟨idleTask, h.sched.idle_rdy⟩
  have hlt : k.readyQueue.highestPri < rhinoConfigPriMax := by
    have := (hr.mem _ t).mp (by rw [hq]; exact List.mem_cons_self)
    rw [← this.2]
    exact hr.bound t ht
  have hpref := preferredCpuReadyTaskGet_preferredTask hq
  refine ⟨fun p hp => bitmap_and_mask_ne_zero_iff hr hp, fun p _ u => hr.mem p u,
    fun p _ => hr.nodup p, ⟨hlt, ?_⟩, fun p hp => ?_, hpref ▸ ht, hpref ▸ hbest, fun hl => ?_⟩
  · rw [bitmap_and_mask_ne_zero_iff hr hlt, hq]
    exact List.cons_ne_nil _ _
  · have := (bitmap_and_mask_ne_zero_iff hr (hp.trans hlt)).not
    rw [not_not, not_not] at this
    exact this.mpr (hr.below p hp)
  · rw [hpref]
    exact coreSched_activeTask h.not_intrpt hl hq

theorem reachable_readyQueueOk (hk : k.Reachable) : k.ReadyQueueOk :=
  hk.inv.readyQueueOk

/-- Task `2` sleeps while task `1` takes a mutex and raises its own priority; the
ticks wake task `2`. -/
def sleepAndRaise : List KCall :=
  [.taskCreate 1 20 0 true, .taskCreate 2 10 0 true, .taskSleep 3, .mutexCreate 0,
   .mutexLock 0 rhinoWaitForever, .tick, .taskPriChange 1 5, .tick, .tick]

theorem reachable_readyQueueOk_sleepAndRaise :
    (Machine.exec call krhinoInit sleepAndRaise).Reachable ∧
      (Machine.exec call krhinoInit sleepAndRaise).ReadyQueueOk :=
  have hk : (Machine.exec call krhinoInit sleepAndRaise).Reachable := ⟨sleepAndRaise, by decide, rfl⟩
  ⟨hk, reachable_readyQueueOk hk⟩

end Kernel

end Rhino
