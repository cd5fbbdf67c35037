import AliosThings.Rhino.WaitInv

/-!
# The wait lists over whole runs

Each service keeps `WaitInv` between two calls. The services that block their
caller block the running task, which is ready (`Inv`), so it is on no list when it
joins one; a waiter that a service wakes is on a blocked list, so it does not sleep;
and an object is created only where no task waits on it (`callOk`). From
`krhino_init` every admissible run then ends in a state where the blocked lists
hold once each exactly the waiting tasks that point at them, the lists under
`BLK_POLICY_PRI` are in priority order, and the tick list holds once each the
marked tasks: the sleeping ones, and the waiting ones that blocked with a finite
timeout.
-/

namespace Rhino

namespace Kernel

variable {k k' : Kernel}

theorem not_isPend_of_isRdy {t : Nat} (hr : k.IsRdy t) : ¬(k.tasks t).IsPend := by
  unfold IsRdy at hr
  simp [KTask.IsPend, hr]

theorem not_isSleep_of_isRdy {t : Nat} (hr : k.IsRdy t) : ¬(k.tasks t).IsSleep := by
  unfold IsRdy at hr
  simp [KTask.IsSleep, hr]

/-- Rewriting the scheduler's globals leaves the lists alone. -/
theorem WaitInv.of_globals (h : k.WaitInv) (htasks : k'.tasks = k.tasks)
    (hobj : ∀ r, k'.blkObj r = k.blkObj r) (htick : k'.tickList = k.tickList) (hbl : k'.blocked = k.blocked) :
    k'.WaitInv :=
  h.of_tasks htasks (fun r => by rw [hobj]; exact ⟨rfl, rfl⟩) htick hbl

/-- An object made again where no task waits: its list stays empty and may take
any policy. -/
theorem WaitInv.create (h : k.WaitInv) (htasks : k'.tasks = k.tasks) (htick : k'.tickList = k.tickList)
    (hbl : k'.blocked = k.blocked) {r : ObjRef} (hnil : (k.blkObj r).blkList = []) (hnew : (k'.blkObj r).blkList = [])
    (hother : ∀ x, x ≠ r → k'.blkObj x = k.blkObj x) : k'.WaitInv := by
  refine h.of_objects htasks htick hbl (fun x => ?_) (fun x _ => ?_)
  · by_cases hx : x = r
    · subst hx
      rw [hnew, hnil]
    · rw [hother x hx]
  · by_cases hx : x = r
    · subst hx
      exact Or.inr hnil
    · rw [← hother x hx]
      exact Or.inl ‹_›

/-- The waiters of an object wait, so none of them sleeps. -/
theorem WaitInv.waiters_not_sleep (h : k.WaitInv) (r : ObjRef) :
    ∀ u ∈ (k.blkObj r).blkList, ¬(k.tasks u).IsSleep := fun _ hu =>
  h.not_sleep_of_mem hu

/-! ### Task services -/

theorem WaitInv.krhinoTaskCreate (hw : k.WaitInv) {t : Nat}
    (ht : (k.tasks t).taskState = .seed ∨ (k.tasks t).taskState = .deleted) (prio ticks : Nat)
    (autorun : Bool) : (k.krhinoTaskCreate t prio ticks autorun).1.WaitInv := by
  unfold Kernel.krhinoTaskCreate Kernel.taskCreate
  by_cases hp : prio ≥ rhinoConfigPriMax
  · rw [if_pos hp]
    exact hw
  rw [if_neg hp]
  by_cases hi : 0 < k.intrptNested
  · rw [if_pos hi]
    exact hw
  rw [if_neg hi]
  by_cases he : prio = rhinoIdlePri ∧ k.idleTaskSpawned
  · rw [if_pos he]
    exact hw
  rw [if_neg he]
  dsimp only
  -- the idle task's flag is a global the lists do not read
  have htasks : (if prio = rhinoIdlePri then { k with idleTaskSpawned := true } else k).tasks = k.tasks := by
    split <;> rfl
  have hw₁ : (if prio = rhinoIdlePri then { k with idleTaskSpawned := true } else k).WaitInv := by
    split
    · exact hw.of_globals rfl (fun r => by cases r <;> rfl) rfl rfl
    · exact hw
  generalize (if prio = rhinoIdlePri then { k with idleTaskSpawned := true } else k) = k₁ at htasks hw₁ ⊢
  -- the control block was not in use, so it is on no list, and the new one is on none
  have hp₀ : ¬(k₁.tasks t).IsPend := by
    rw [htasks]
    rcases ht with ht | ht <;> simp [KTask.IsPend, ht]
  have hs₀ : ¬(k₁.tasks t).IsSleep := by
    rw [htasks]
    rcases ht with ht | ht <;> simp [KTask.IsSleep, ht]
  have hnew : ∀ task : KTask, ¬task.IsPend → ¬task.IsSleep → task.tickHead = false →
      (k₁.setTask t fun _ => task).WaitInv := fun task hp' hs' hh' =>
    hw₁.setTask_quiet hp₀ (hw₁.tickHead_false hp₀ hs₀) hp' hs' hh'
  cases autorun with
  | false =>
    refine hnew _ ?_ ?_ rfl
    · simp [KTask.IsPend]
    · simp [KTask.IsSleep]
  | true =>
    refine (WaitInvE.readyListAddTail (hnew _ ?_ ?_ rfl) t).coreSched
    · simp [KTask.IsPend]
    · simp [KTask.IsSleep]

theorem WaitInv.krhinoTaskSleep (h : k.Inv) (hw : k.WaitInv) (ticks : Nat) :
    (k.krhinoTaskSleep ticks).1.WaitInv := by
  unfold Kernel.krhinoTaskSleep
  split_ifs with h0 hi hl
  · exact hw
  · exact hw
  · exact hw
  -- the running task is ready, so it neither waits nor sleeps
  have h₁ := hw.sleep (not_isPend_of_isRdy h.active_rdy) (not_isSleep_of_isRdy h.active_rdy)
    (Nat.pos_of_ne_zero h0)
  exact (WaitInvE.readyListRm h₁ _).coreSched

theorem WaitInv.krhinoTaskYield (hw : k.WaitInv) : k.krhinoTaskYield.1.WaitInv :=
  (WaitInvE.readyListHeadToTail hw _).coreSched

theorem WaitInv.krhinoTaskSuspend (hw : k.WaitInv) (t : Nat) : (k.krhinoTaskSuspend t).1.WaitInv := by
  unfold Kernel.krhinoTaskSuspend
  split
  · exact hw
  unfold Kernel.taskSuspend
  split
  · exact hw
  cases hs : (k.tasks t).taskState with
  | rdy =>
    -- a ready task leaves the ready queue
    simp only []
    have h₁ := hw.setTask_notPend (t := t)
      (f := fun task => { task with suspendCount := 1, taskState := .suspended })
      (by simp [KTask.IsPend, hs]) (by simp [KTask.IsPend]) (by simp [KTask.IsSleep, hs]) rfl
    exact (WaitInvE.readyListRm h₁ t).coreSched
  | sleep =>
    simp only []
    refine (WaitInvE.setTask_of hw ⟨?_, ?_, rfl, rfl, rfl, rfl⟩).coreSched <;>
      simp [KTask.IsPend, KTask.IsSleep, hs]
  | pend =>
    simp only []
    refine (WaitInvE.setTask_of hw ⟨?_, ?_, rfl, rfl, rfl, rfl⟩).coreSched <;>
      simp [KTask.IsPend, KTask.IsSleep, hs]
  | suspended | sleepSuspended | pendSuspended =>
    -- one more level of suspension, or the counter is full
    by_cases hc : (k.tasks t).suspendCount = suspendNestedMax
    · simp only [hc, if_true]
      exact hw
    · simp only [hc, if_false]
      exact (WaitInvE.setTask_of hw ⟨Iff.rfl, Iff.rfl, rfl, rfl, rfl, rfl⟩).coreSched
  | seed | deleted => exact hw

theorem WaitInv.krhinoTaskResume (hw : k.WaitInv) (t : Nat) : (k.krhinoTaskResume t).1.WaitInv := by
  unfold Kernel.krhinoTaskResume
  dsimp only
  generalize ((k.tasks t).suspendCount + suspendNestedMax) % (suspendNestedMax + 1) = count
  have hdec : (k.setTask t fun task => { task with suspendCount := count }).WaitInv :=
    WaitInvE.setTask_of hw ⟨Iff.rfl, Iff.rfl, rfl, rfl, rfl, rfl⟩
  cases hs : (k.tasks t).taskState with
  | rdy | sleep | pend | seed | deleted => exact hw
  | suspended =>
    -- the last resume makes the task ready and queues it
    simp only []
    split
    · have h₁ := hdec.setTask_notPend (t := t) (f := fun task => { task with taskState := .rdy })
        (by simp [KTask.IsPend, hs]) (by simp [KTask.IsPend]) (by simp [KTask.IsSleep, hs]) rfl
      exact (WaitInvE.readyListAdd h₁ t).coreSched
    · exact hdec.coreSched
  | sleepSuspended | pendSuspended =>
    -- the last resume goes back to sleeping or waiting, on the same lists
    simp only []
    split
    · refine (WaitInvE.setTask_of hdec ⟨?_, ?_, rfl, rfl, rfl, rfl⟩).coreSched <;>
        simp [KTask.IsPend, KTask.IsSleep, hs]
    · exact hdec.coreSched

theorem WaitInv.krhinoTaskPriChange (hw : k.WaitInv) (t pri : Nat) :
    (k.krhinoTaskPriChange t pri).1.WaitInv := by
  unfold Kernel.krhinoTaskPriChange
  split_ifs with hp hpri hdel hi
  · exact hw
  · exact hw
  · exact hw
  · exact hw
  have h₁ : (k.setTask t fun task => { task with bPrio := pri }).WaitInv :=
    WaitInvE.setTask_of hw ⟨Iff.rfl, Iff.rfl, rfl, rfl, rfl, rfl⟩
  have h₂ : ((k.setTask t fun task => { task with bPrio := pri }).taskPriChange t
      (k.mutexPriLimit t pri)).1.WaitInv := WaitInv.taskPriChangeLoop _ h₁
  dsimp only
  split
  · exact h₂
  · exact h₂.coreSched

theorem WaitInv.krhinoTaskWaitAbort (hw : k.WaitInv) (t : Nat) :
    (k.krhinoTaskWaitAbort t).1.WaitInv := by
  unfold Kernel.krhinoTaskWaitAbort
  split
  · exact hw
  cases hs : (k.tasks t).taskState with
  | seed | deleted => exact hw
  | rdy => exact hw.coreSched
  | suspended =>
    simp only []
    have h₁ := hw.setTask_notPend (t := t) (f := fun task => { task with taskState := .rdy })
      (by simp [KTask.IsPend, hs]) (by simp [KTask.IsPend]) (by simp [KTask.IsSleep, hs]) rfl
    exact (WaitInvE.readyListAdd h₁ t).coreSched
  | sleep | sleepSuspended =>
    -- off the tick list, queued and ready with `BLK_ABORT`
    simp only []
    exact (hw.unsleep_ready (by simp [KTask.IsSleep, hs])
      (f := fun task => { task with taskState := .rdy, blkState := .abort })
      (fun _ => by simp [KTask.IsPend]) (fun _ => by simp [KTask.IsSleep]) fun _ => rfl).coreSched
  | pend | pendSuspended =>
    -- off both lists, queued and ready; the mutex owner may give back the priority
    simp only []
    have h₁ := hw.endWait_ready (t := t) (by simp [KTask.IsPend, hs])
      (f := fun task => { task with taskState := .rdy, blkState := .abort })
      (fun _ => by simp [KTask.IsPend]) (fun _ => by simp [KTask.IsSleep]) fun _ => rfl
    exact (h₁.resetBlkObj (by simp [KTask.IsPend])).coreSched

theorem WaitInv.krhinoTaskDel (hw : k.WaitInv) (t : Nat) : (k.krhinoTaskDel t).1.WaitInv := by
  unfold Kernel.krhinoTaskDel
  split_ifs with hi hprio hstatic hguard
  · exact hw
  · exact hw
  · exact hw
  · exact hw
  -- the mutexes go first; the state split works on what `task_mutex_free` left
  have h₁ := hw.taskMutexFree t
  dsimp only
  generalize k.taskMutexFree t = k₁ at h₁ ⊢
  unfold Kernel.taskDelSwitch
  cases hs : (k₁.tasks t).taskState with
  | seed | deleted => exact h₁
  | rdy =>
    simp only []
    have h₂ := WaitInvE.readyListRm h₁ t
    refine (WaitInv.setTask_notPend h₂ (t := t) (f := fun task => { task with taskState := .deleted })
      ?_ (by simp [KTask.IsPend]) ?_ rfl).coreSched
    · simp [KTask.IsPend, hs]
    · simp [KTask.IsSleep, hs]
  | suspended =>
    simp only []
    exact (h₁.setTask_notPend (t := t) (f := fun task => { task with taskState := .deleted })
      (by simp [KTask.IsPend, hs]) (by simp [KTask.IsPend]) (by simp [KTask.IsSleep, hs]) rfl).coreSched
  | sleep | sleepSuspended =>
    simp only []
    exact (h₁.unsleep (t := t) (by simp [KTask.IsSleep, hs])
      (f := fun task => { task with taskState := .deleted })
      (fun _ => by simp [KTask.IsPend]) (fun _ => by simp [KTask.IsSleep]) fun _ => rfl).coreSched
  | pend | pendSuspended =>
    -- off both lists; the owner of a mutex it waited for may give back the priority
    simp only []
    have h₂ := h₁.endWait (t := t) (by simp [KTask.IsPend, hs])
      (f := fun task => { task with taskState := .deleted })
      (fun _ => by simp [KTask.IsPend]) (fun _ => by simp [KTask.IsSleep]) fun _ => rfl
    exact (h₂.mutexTaskPriReset t).coreSched

theorem WaitInv.krhinoSchedDisable (hw : k.WaitInv) : k.krhinoSchedDisable.1.WaitInv := by
  unfold Kernel.krhinoSchedDisable
  split_ifs
  · exact hw
  · exact hw
  · exact hw.of_globals rfl (fun r => by cases r <;> rfl) rfl rfl

theorem WaitInv.krhinoSchedEnable (hw : k.WaitInv) : k.krhinoSchedEnable.1.WaitInv := by
  unfold Kernel.krhinoSchedEnable
  split_ifs
  · exact hw
  · exact hw
  have h₁ : ({ k with schedLock := k.schedLock - 1 } : Kernel).WaitInv :=
    hw.of_globals rfl (fun r => by cases r <;> rfl) rfl rfl
  dsimp only
  split
  · exact h₁
  · exact h₁.coreSched

/-- The tick interrupt: the tick list is served at nesting level one. -/
theorem WaitInv.tick (hw : k.WaitInv) : k.krhinoIntrptEnter.krhinoTickProc.krhinoIntrptExit.WaitInv := by
  have h₁ : k.krhinoIntrptEnter.WaitInv := hw.of_globals rfl (fun r => by cases r <;> rfl) rfl rfl
  have h₂ := (h₁.tickListUpdate 1).timeSliceUpdate
  rw [krhinoIntrptExit_eq]
  refine WaitInvE.coreSched ?_
  exact h₂.of_globals rfl (fun r => by cases r <;> rfl) rfl rfl

/-! ### Mutexes -/

theorem WaitInv.krhinoMutexCreate (hw : k.WaitInv) {m : Nat} (hm : (k.mutexes m).blkObj.blkList = [])
    : (k.krhinoMutexCreate m).WaitInv := by
  unfold Kernel.krhinoMutexCreate
  refine hw.create (r := .mutex m) rfl rfl rfl hm (by simp) fun r hr => ?_
  rw [blkObj_setMutex, if_neg hr]

theorem WaitInv.krhinoMutexLock (h : k.Inv) (hw : k.WaitInv) (m ticks : Nat) :
    (k.krhinoMutexLock m ticks).1.WaitInv := by
  unfold Kernel.krhinoMutexLock
  dsimp only
  split
  · exact hw
  split
  · exact hw
  split
  · -- one more nesting level of the owner, or the counter is full
    split
    · exact hw
    · dsimp only
      exact WaitInvE.setMutex hw fun _ => ⟨rfl, rfl⟩
  split
  · -- a free mutex: the running task takes it
    dsimp only
    refine WaitInvE.setTask_of (WaitInvE.setMutex hw ?_) ?_
    · exact fun _ => ⟨rfl, rfl⟩
    · exact ⟨Iff.rfl, Iff.rfl, rfl, rfl, rfl, rfl⟩
  · rename_i o howner
    split
    · exact hw
    split
    · exact hw
    -- the owner may take the waiter's priority; the waiter is still ready, and blocks
    have hp := not_isPend_of_isRdy h.active_rdy
    have hs := not_isSleep_of_isRdy h.active_rdy
    split
    · have hk := statesKept_taskPriChangeLoop (2 * k.blocked.length + 2) k o k.active.prio
      have h₁ : (k.taskPriChange o k.active.prio).1.WaitInv := WaitInv.taskPriChangeLoop _ hw
      refine (h₁.pendToBlkObj ?_ ?_ _ ‹_›).coreSched
      · simpa [KTask.IsPend, taskPriChange, hk.state] using hp
      · simpa [KTask.IsSleep, taskPriChange, hk.state] using hs
    · exact (hw.pendToBlkObj hp hs _ ‹_›).coreSched

theorem WaitInv.krhinoMutexUnlock (hw : k.WaitInv) (m : Nat) : (k.krhinoMutexUnlock m).1.WaitInv := by
  unfold Kernel.krhinoMutexUnlock
  dsimp only
  split
  · exact hw
  split
  · exact hw
  split
  · exact hw
  have h₁ : (k.setMutex m fun mx => { mx with ownerNested :=
      ((k.mutexes m).ownerNested + mutexNestedMax) % (mutexNestedMax + 1) }).WaitInv :=
    WaitInvE.setMutex hw fun _ => ⟨rfl, rfl⟩
  split
  · exact h₁
  -- the last level: the lent priority goes, and the first waiter takes the mutex
  have h₂ := h₁.mutexRelease k.activeTask (some m)
  generalize (k.setMutex m fun mx => { mx with ownerNested :=
      ((k.mutexes m).ownerNested + mutexNestedMax) % (mutexNestedMax + 1) }).mutexRelease
      k.activeTask (some m) = k₂ at h₂ ⊢
  split
  · dsimp only
    exact WaitInvE.setMutex h₂ fun _ => ⟨rfl, rfl⟩
  · rename_i w ws hl
    have hs : ¬(k₂.tasks w).IsSleep := h₂.not_sleep_of_mem (r := .mutex m)
      (by show w ∈ (k₂.mutexes m).blkObj.blkList; rw [hl]; exact List.mem_cons_self)
    refine (WaitInvE.setTask_of (WaitInvE.setMutex (h₂.pendTaskEnd hs .finish) ?_) ?_).coreSched
    · exact fun _ => ⟨rfl, rfl⟩
    · exact ⟨Iff.rfl, Iff.rfl, rfl, rfl, rfl, rfl⟩

theorem WaitInv.krhinoMutexDel (hw : k.WaitInv) (m : Nat) : (k.krhinoMutexDel m).1.WaitInv := by
  unfold Kernel.krhinoMutexDel
  split_ifs with hi htype
  · exact hw
  · exact hw
  dsimp only
  have h₁ : (k.setMutex m fun mx => { mx with blkObj := { mx.blkObj with objType := .none } }).WaitInv :=
    WaitInvE.setMutex hw fun _ => ⟨rfl, rfl⟩
  generalize (k.setMutex m fun mx => { mx with blkObj := { mx.blkObj with objType := .none } }) = k₁ at h₁ ⊢
  -- the owner gives up what the waiters lent it, then every waiter is woken
  split
  · rename_i o _
    have h₂ := h₁.mutexRelease o (some m)
    exact (h₂.pendTaskRmAll (h₂.waiters_not_sleep (.mutex m))).coreSched
  · exact (h₁.pendTaskRmAll (h₁.waiters_not_sleep (.mutex m))).coreSched

/-! ### Buffer queues -/

theorem WaitInv.bufQueueCreate (hw : k.WaitInv) {q : Nat} (hq : (k.bufQueues q).blkObj.blkList = [])
    (mem : Nat → UInt8) (size maxMsg : Nat) (type : RingbufType) :
    (k.bufQueueCreate q mem size maxMsg type).1.WaitInv := by
  unfold Kernel.bufQueueCreate
  split
  · exact hw
  split
  · exact hw
  dsimp only
  refine hw.create (r := .bufQueue q) rfl rfl rfl hq (by simp) fun r hr => ?_
  rw [blkObj_setBufQueue, if_neg hr]

/-- The first waiter of an object does not sleep. -/
theorem WaitInv.not_sleep_of_head (hw : k.WaitInv) {r : ObjRef} {w : Nat} {ws : List Nat}
    (hl : (k.blkObj r).blkList = w :: ws) : ¬(k.tasks w).IsSleep :=
  hw.not_sleep_of_mem (by rw [hl]; exact List.mem_cons_self)

theorem WaitInv.krhinoBufQueueSend (hw : k.WaitInv) (q : Nat) (msg : List UInt8) (size : Nat) :
    (k.krhinoBufQueueSend q msg size).1.WaitInv := by
  unfold Kernel.krhinoBufQueueSend Kernel.bufQueueSend
  dsimp only
  split
  · exact hw
  split
  · exact hw
  split
  · exact hw
  split
  · -- nobody waits: the message goes into the ring, unless it is full
    split
    · exact hw
    · dsimp only
      exact WaitInvE.setBufQueue hw fun _ => ⟨rfl, rfl⟩
  · -- the message goes straight to the first receiver
    rename_i w ws hl
    have hs := hw.not_sleep_of_head (r := .bufQueue q) hl
    refine (WaitInv.pendTaskEnd (WaitInvE.setTask_of hw ?_) ?_ .finish).coreSched
    · exact ⟨Iff.rfl, Iff.rfl, rfl, rfl, rfl, rfl⟩
    · simpa [KTask.IsSleep] using hs

theorem WaitInv.krhinoBufQueueRecv (h : k.Inv) (hw : k.WaitInv) (q ticks : Nat) :
    (k.krhinoBufQueueRecv q ticks).1.WaitInv := by
  unfold Kernel.krhinoBufQueueRecv
  dsimp only
  split
  · exact hw
  split
  · exact hw
  split
  · dsimp only
    exact WaitInvE.setBufQueue hw fun _ => ⟨rfl, rfl⟩
  split
  · exact hw
  split
  · exact hw
  · exact (hw.pendToBlkObj (not_isPend_of_isRdy h.active_rdy) (not_isSleep_of_isRdy h.active_rdy)
      _ ‹_›).coreSched

theorem WaitInv.krhinoBufQueueFlush (hw : k.WaitInv) (q : Nat) : (k.krhinoBufQueueFlush q).1.WaitInv := by
  unfold Kernel.krhinoBufQueueFlush
  split
  · exact hw
  split
  · exact hw
  dsimp only
  exact WaitInvE.setBufQueue hw fun _ => ⟨rfl, rfl⟩

theorem WaitInv.krhinoBufQueueDel (hw : k.WaitInv) (q : Nat) : (k.krhinoBufQueueDel q).1.WaitInv := by
  unfold Kernel.krhinoBufQueueDel
  split
  · exact hw
  split
  · exact hw
  dsimp only
  have h₁ : (k.setBufQueue q fun bq => { bq with blkObj := { bq.blkObj with objType := .none } }).WaitInv :=
    WaitInvE.setBufQueue hw fun _ => ⟨rfl, rfl⟩
  have h₂ := h₁.pendTaskRmAll (h₁.waiters_not_sleep (.bufQueue q))
  refine (WaitInvE.setBufQueue h₂ ?_).coreSched
  exact fun _ => ⟨rfl, rfl⟩

/-! ### Semaphores -/

theorem WaitInv.krhinoSemCreate (hw : k.WaitInv) {s : Nat} (hs : (k.sems s).blkObj.blkList = [])
    (count : Nat) : (k.krhinoSemCreate s count).WaitInv := by
  unfold Kernel.krhinoSemCreate
  refine hw.create (r := .sem s) rfl rfl rfl hs (by simp) fun r hr => ?_
  rw [blkObj_setSem, if_neg hr]

theorem WaitInv.krhinoSemDel (hw : k.WaitInv) (s : Nat) : (k.krhinoSemDel s).1.WaitInv := by
  unfold Kernel.krhinoSemDel
  split
  · exact hw
  split
  · exact hw
  dsimp only
  have h₁ : (k.setSem s fun sm => { sm with blkObj := { sm.blkObj with objType := .none } }).WaitInv :=
    WaitInvE.setSem hw fun _ => ⟨rfl, rfl⟩
  exact (h₁.pendTaskRmAll (h₁.waiters_not_sleep (.sem s))).coreSched

theorem WaitInv.semGive (hw : k.WaitInv) (s : Nat) (wakeAll : Bool) : (k.semGive s wakeAll).1.WaitInv := by
  unfold Kernel.semGive
  dsimp only
  split
  · exact hw
  split
  · -- nobody waits: the count goes up, unless it is full
    split
    · exact hw
    · dsimp only
      exact WaitInvE.setSem hw fun _ => ⟨rfl, rfl⟩
  · -- the unit goes to the first waiter, or to all of them
    rename_i w ws hl
    split
    · refine (hw.pendTaskWakeupAll fun u hu => hw.not_sleep_of_mem (r := .sem s) ?_).coreSched
      show u ∈ (k.sems s).blkObj.blkList
      rw [hl]
      exact hu
    · exact (hw.pendTaskEnd (hw.not_sleep_of_head (r := .sem s) hl) .finish).coreSched

theorem WaitInv.krhinoSemTake (h : k.Inv) (hw : k.WaitInv) (s ticks : Nat) :
    (k.krhinoSemTake s ticks).1.WaitInv := by
  unfold Kernel.krhinoSemTake
  split
  · exact hw
  split
  · exact hw
  split
  · dsimp only
    exact WaitInvE.setSem hw fun _ => ⟨rfl, rfl⟩
  split
  · exact hw
  split
  · exact hw
  · exact (hw.pendToBlkObj (not_isPend_of_isRdy h.active_rdy) (not_isSleep_of_isRdy h.active_rdy)
      _ ‹_›).coreSched

theorem WaitInv.krhinoSemCountSet (hw : k.WaitInv) (s count : Nat) :
    (k.krhinoSemCountSet s count).1.WaitInv := by
  unfold Kernel.krhinoSemCountSet
  split
  · exact hw
  split
  · exact hw
  split
  · exact hw
  dsimp only
  exact WaitInvE.setSem hw fun _ => ⟨rfl, rfl⟩

/-! ### Message queues -/

theorem WaitInv.krhinoQueueCreate (hw : k.WaitInv) {q : Nat} (hq : (k.queues q).blkObj.blkList = [])
    (start : Nat → UInt8) (msgNum : Nat) : (k.krhinoQueueCreate q start msgNum).1.WaitInv := by
  unfold Kernel.krhinoQueueCreate
  split
  · exact hw
  dsimp only
  refine hw.create (r := .queue q) rfl rfl rfl hq (by simp) fun r hr => ?_
  rw [blkObj_setQueue, if_neg hr]

theorem WaitInv.krhinoQueueDel (hw : k.WaitInv) (q : Nat) : (k.krhinoQueueDel q).1.WaitInv := by
  unfold Kernel.krhinoQueueDel
  split
  · exact hw
  split
  · exact hw
  dsimp only
  have h₁ : (k.setQueue q fun mq => { mq with blkObj := { mq.blkObj with objType := .none } }).WaitInv :=
    WaitInvE.setQueue hw fun _ => ⟨rfl, rfl⟩
  have h₂ := h₁.pendTaskRmAll (h₁.waiters_not_sleep (.queue q))
  refine (WaitInvE.setQueue h₂ ?_).coreSched
  exact fun _ => ⟨rfl, rfl⟩

theorem WaitInv.msgSend (hw : k.WaitInv) (q p : Nat) (wakeAll : Bool) : (k.msgSend q p wakeAll).1.WaitInv := by
  unfold Kernel.msgSend
  dsimp only
  split
  · exact hw
  split
  · exact hw
  split
  · dsimp only
    exact WaitInvE.setQueue hw fun _ => ⟨rfl, rfl⟩
  · rename_i w ws hl
    split
    · refine (hw.taskMsgRecvAll p fun u hu => hw.not_sleep_of_mem (r := .queue q) ?_).coreSched
      show u ∈ (k.queues q).blkObj.blkList
      rw [hl]
      exact hu
    · exact (hw.taskMsgRecv (hw.not_sleep_of_head (r := .queue q) hl) p).coreSched

theorem WaitInv.krhinoQueueRecv (h : k.Inv) (hw : k.WaitInv) (q ticks : Nat) :
    (k.krhinoQueueRecv q ticks).1.WaitInv := by
  unfold Kernel.krhinoQueueRecv
  dsimp only
  split
  · exact hw
  split
  · exact hw
  split
  · dsimp only
    exact WaitInvE.setQueue hw fun _ => ⟨rfl, rfl⟩
  split
  · exact hw
  split
  · exact hw
  · exact (hw.pendToBlkObj (not_isPend_of_isRdy h.active_rdy) (not_isSleep_of_isRdy h.active_rdy)
      _ ‹_›).coreSched

theorem WaitInv.krhinoQueueFlush (hw : k.WaitInv) (q : Nat) : (k.krhinoQueueFlush q).1.WaitInv := by
  unfold Kernel.krhinoQueueFlush
  split
  · exact hw
  split
  · exact hw
  dsimp only
  exact WaitInvE.setQueue hw fun _ => ⟨rfl, rfl⟩

/-! ### Event flags -/

theorem WaitInv.krhinoEventCreate (hw : k.WaitInv) {e : Nat} (he : (k.events e).blkObj.blkList = [])
    (flags : UInt32) : (k.krhinoEventCreate e flags).WaitInv := by
  unfold Kernel.krhinoEventCreate
  refine hw.create (r := .event e) rfl rfl rfl he (by simp) fun r hr => ?_
  rw [blkObj_setEvent, if_neg hr]

theorem WaitInv.krhinoEventDel (hw : k.WaitInv) (e : Nat) : (k.krhinoEventDel e).1.WaitInv := by
  unfold Kernel.krhinoEventDel
  split
  · exact hw
  split
  · exact hw
  dsimp only
  have h₁ : (k.setEvent e fun ev => { ev with blkObj := { ev.blkObj with objType := .none } }).WaitInv :=
    WaitInvE.setEvent hw fun _ => ⟨rfl, rfl⟩
  have h₂ := h₁.pendTaskRmAll (h₁.waiters_not_sleep (.event e))
  refine (WaitInvE.setEvent h₂ ?_).coreSched
  exact fun _ => ⟨rfl, rfl⟩

theorem WaitInv.krhinoEventGet (h : k.Inv) (hw : k.WaitInv) (e : Nat) (flags : UInt32) (opt ticks : Nat) :
    (k.krhinoEventGet e flags opt ticks).1.WaitInv := by
  unfold Kernel.krhinoEventGet
  dsimp only
  split
  · exact hw
  split
  · exact hw
  split
  · exact hw
  split
  · -- the flags are there: they are cleared if asked for
    split
    · dsimp only
      exact WaitInvE.setEvent hw fun _ => ⟨rfl, rfl⟩
    · exact hw
  split
  · exact hw
  split
  · exact hw
  -- the running task records what it waits for, then blocks
  have h₁ : (k.setTask k.activeTask fun task => { task with pendOption := opt, pendFlags := flags }).WaitInv :=
    WaitInvE.setTask_of hw ⟨Iff.rfl, Iff.rfl, rfl, rfl, rfl, rfl⟩
  refine (h₁.pendToBlkObj ?_ ?_ _ ‹_›).coreSched
  · simpa [KTask.IsPend] using not_isPend_of_isRdy h.active_rdy
  · simpa [KTask.IsSleep] using not_isSleep_of_isRdy h.active_rdy

theorem WaitInv.krhinoEventSet (hw : k.WaitInv) (e : Nat) (flags : UInt32) (opt : Nat) :
    (k.krhinoEventSet e flags opt).1.WaitInv := by
  unfold Kernel.krhinoEventSet Kernel.eventSet
  dsimp only
  split
  · exact hw
  split
  · exact hw
  split
  · dsimp only
    exact WaitInvE.setEvent hw fun _ => ⟨rfl, rfl⟩
  -- the waiters the new flags satisfy are woken, against the flags as they are now
  have h₁ : (k.setEvent e fun ev => { ev with flags := ev.flags ||| flags }).WaitInv :=
    WaitInvE.setEvent hw fun _ => ⟨rfl, rfl⟩
  exact (h₁.eventSetWake e _ (h₁.waiters_not_sleep (.event e))).coreSched

/-! ### Whole runs -/

/-- Every admissible call keeps the lists. -/
theorem WaitInv.call (h : k.Inv) (hw : k.WaitInv) (c : KCall) (hc : k.callOk c = true) :
    (k.call c).1.WaitInv := by
  -- the object a create names has an empty list; a created control block is not in use
  have hnil : ∀ l : List Nat, l.isEmpty = true → l = [] := fun l => List.isEmpty_iff.mp
  cases c with
  | taskCreate t prio ticks autorun =>
    exact hw.krhinoTaskCreate (by simpa [callOk] using hc) prio ticks autorun
  | taskSleep ticks => exact hw.krhinoTaskSleep h ticks
  | taskYield => exact hw.krhinoTaskYield
  | taskSuspend t => exact hw.krhinoTaskSuspend t
  | taskResume t => exact hw.krhinoTaskResume t
  | taskPriChange t pri => exact hw.krhinoTaskPriChange t pri
  | taskWaitAbort t => exact hw.krhinoTaskWaitAbort t
  | taskDel t => exact hw.krhinoTaskDel t
  | schedDisable => exact hw.krhinoSchedDisable
  | schedEnable => exact hw.krhinoSchedEnable
  | tick => exact hw.tick
  | mutexCreate m => exact hw.krhinoMutexCreate (hnil _ hc)
  | mutexLock m ticks => exact hw.krhinoMutexLock h m ticks
  | mutexUnlock m => exact hw.krhinoMutexUnlock m
  | mutexDel m => exact hw.krhinoMutexDel m
  | bufQueueCreate q mem size maxMsg => exact hw.bufQueueCreate (hnil _ hc) mem size maxMsg .dyn
  | fixBufQueueCreate q mem msgSize msgNum => exact hw.bufQueueCreate (hnil _ hc) mem _ msgSize .fix
  | bufQueueSend q msg size => exact hw.krhinoBufQueueSend q msg size
  | bufQueueRecv q ticks => exact hw.krhinoBufQueueRecv h q ticks
  | bufQueueFlush q => exact hw.krhinoBufQueueFlush q
  | bufQueueDel q => exact hw.krhinoBufQueueDel q
  | semCreate s count => exact hw.krhinoSemCreate (hnil _ hc) count
  | semDel s => exact hw.krhinoSemDel s
  | semGive s => exact hw.semGive s false
  | semGiveAll s => exact hw.semGive s true
  | semTake s ticks => exact hw.krhinoSemTake h s ticks
  | semCountSet s count => exact hw.krhinoSemCountSet s count
  | queueCreate q start msgNum => exact hw.krhinoQueueCreate (hnil _ hc) start msgNum
  | queueDel q => exact hw.krhinoQueueDel q
  | queueBackSend q p => exact hw.msgSend q p false
  | queueAllSend q p => exact hw.msgSend q p true
  | queueRecv q ticks => exact hw.krhinoQueueRecv h q ticks
  | queueFlush q => exact hw.krhinoQueueFlush q
  | eventCreate e flags => exact hw.krhinoEventCreate (hnil _ hc) flags
  | eventDel e => exact hw.krhinoEventDel e
  | eventGet e flags opt ticks => exact hw.krhinoEventGet h e flags opt ticks
  | eventSet e flags opt => exact hw.krhinoEventSet e flags opt

/-- Nothing is created before `krhino_init`: every list is empty and no task waits
or sleeps. -/
theorem waitInv_zero : zero.WaitInv where
  mem r t _ := by cases r <;> simp [zero, Kernel.blkObj, BlkObj.none, KTask.zero]
  pend_obj t _ hp := by simp [zero, KTask.zero, KTask.IsPend] at hp
  nodup r := by cases r <;> simp [zero, Kernel.blkObj, BlkObj.none]
  sorted r _ := by cases r <;> simp [zero, Kernel.blkObj, BlkObj.none, PrioSorted]
  tick_mem t _ := by simp [zero, KTask.zero]
  tick_nodup := List.nodup_nil
  tick_state t _ hh := by simp [zero, KTask.zero] at hh
  sleep_tick t _ hs := by simp [zero, KTask.zero, KTask.IsSleep] at hs
  pend_tick t _ hp := by simp [zero, KTask.zero, KTask.IsPend] at hp
  pend_blocked t _ hp := by simp [zero, KTask.zero, KTask.IsPend] at hp

theorem krhinoInit_waitInv : krhinoInit.WaitInv := by
  unfold krhinoInit
  dsimp only
  refine WaitInv.krhinoTaskCreate ?_ (Or.inl rfl) _ _ _
  exact waitInv_zero.of_globals rfl (fun r => by cases r <;> rfl) rfl rfl

theorem Reachable.waitInv (hk : k.Reachable) : k.WaitInv := by
  obtain ⟨cs, hok, rfl⟩ := hk
  have hboth := Machine.exec_invariant_allowed (fun k => k.Inv ∧ k.WaitInv)
    (fun k c h hc => ⟨h.1.call c hc, h.2.call h.1 c hc⟩) ⟨krhinoInit_inv, krhinoInit_waitInv⟩ hok
  exact hboth.2

/-- The blocked lists and the tick list in a state between two calls. A waiting
task is on the list of its `blk_obj` and on no other, and not on any ready list;
every task on a blocked list waits; a list holds a task once, and a list under
`BLK_POLICY_PRI` is in nondecreasing order of priority. The tick list holds once
each the tasks whose `tick_head` is set, and those are the sleeping tasks and the
waiting tasks whose timeout (the ghost `pendTimeout`) is not `RHINO_WAIT_FOREVER`. -/
structure WaitListsOk (k : Kernel) : Prop where
  pend_obj : ∀ t, (k.tasks t).IsPend → ∃ r, (k.tasks t).blkObj = some r
  pend_mem : ∀ t, (k.tasks t).IsPend → ∀ r, t ∈ (k.blkObj r).blkList ↔ (k.tasks t).blkObj = some r
  pend_not_ready : ∀ t, (k.tasks t).IsPend → ∀ p < rhinoConfigPriMax, t ∉ k.readyQueue.curListItem p
  mem_pend : ∀ r t, t ∈ (k.blkObj r).blkList → (k.tasks t).IsPend
  nodup : ∀ r, (k.blkObj r).blkList.Nodup
  sorted : ∀ r, (k.blkObj r).blkPolicy = .pri →
    (k.blkObj r).blkList.Pairwise fun a b => (k.tasks a).prio ≤ (k.tasks b).prio
  tick_mem : ∀ t, t ∈ k.tickList ↔ (k.tasks t).tickHead = true
  tick_nodup : k.tickList.Nodup
  tick_iff : ∀ t, t ∈ k.tickList ↔
    (k.tasks t).IsSleep ∨ ((k.tasks t).IsPend ∧ (k.tasks t).pendTimeout ≠ rhinoWaitForever)

/-- The lists as `WaitInv` keeps them, with the ready queue as `Inv` keeps it. -/
theorem WaitInv.waitListsOk (hw : k.WaitInv) (hq : k.ReadyQueueOk) : k.WaitListsOk where
  pend_obj t hp := Option.ne_none_iff_exists'.mp (hw.pend_obj t not_false hp)
  pend_mem t hp r := by
    rw [hw.mem r t not_false]
    exact and_iff_left hp
  pend_not_ready t hp p hpr hm := by
    have hr := ((hq.mem_iff p hpr t).mp hm).1
    rcases hp with hp | hp <;> rw [hp] at hr <;> exact absurd hr (by decide)
  mem_pend r t hm := ((hw.mem r t not_false).mp hm).2
  nodup := hw.nodup
  sorted r hr := SortedInsert.pairwise_except_false_iff.mp (hw.sorted r hr)
  tick_mem t := hw.tick_mem t not_false
  tick_nodup := hw.tick_nodup
  tick_iff t := by
    rw [hw.tick_mem t not_false]
    constructor
    · intro hh
      rcases hw.tick_state t not_false hh with hs | hp
      · exact Or.inl hs
      · exact Or.inr ⟨hp, (hw.pend_tick t not_false hp).mp hh⟩
    · rintro (hs | ⟨hp, hto⟩)
      · exact hw.sleep_tick t not_false hs
      · exact (hw.pend_tick t not_false hp).mpr hto

theorem reachable_waitListsOk (hk : k.Reachable) : k.WaitListsOk :=
  hk.waitInv.waitListsOk (reachable_readyQueueOk hk)

/-- Task `1` holds mutex `0`; tasks `2` and `3`, both of priority `10`, block on it
in that order. -/
def equalPrioWaiters : List KCall :=
  [.taskCreate 1 20 0 true, .mutexCreate 0, .mutexLock 0 rhinoWaitForever,
   .taskCreate 2 10 0 true, .mutexLock 0 rhinoWaitForever,
   .taskCreate 3 10 0 true, .taskYield, .mutexLock 0 rhinoWaitForever]

theorem reachable_waitListsOk_equalPrioWaiters :
    (Machine.exec call krhinoInit equalPrioWaiters).Reachable ∧
      (Machine.exec call krhinoInit equalPrioWaiters).WaitListsOk :=
  have hk : (Machine.exec call krhinoInit equalPrioWaiters).Reachable := ⟨equalPrioWaiters, by decide, rfl⟩
  ⟨hk, reachable_waitListsOk hk⟩

/-- Arrival order among equal priorities is not kept: task `2`, which blocked first,
goes to priority `11` and back to `10`, and `pend_list_reorder` puts it behind task
`3`, which arrived later with the same priority. -/
theorem pendListReorder_breaks_fifo :
    Machine.allowed call callOk krhinoInit
        (equalPrioWaiters ++ [.taskPriChange 2 11, .taskPriChange 2 10]) = true ∧
      ((Machine.exec call krhinoInit equalPrioWaiters).mutexes 0).blkObj.blkList = [2, 3] ∧
      ((Machine.exec call krhinoInit
        (equalPrioWaiters ++ [.taskPriChange 2 11, .taskPriChange 2 10])).mutexes 0).blkObj.blkList = [3, 2] ∧
      ((Machine.exec call krhinoInit
        (equalPrioWaiters ++ [.taskPriChange 2 11, .taskPriChange 2 10])).tasks 2).prio = 10 ∧
      ((Machine.exec call krhinoInit
        (equalPrioWaiters ++ [.taskPriChange 2 11, .taskPriChange 2 10])).tasks 3).prio = 10 := by
  decide

end Kernel

end Rhino
