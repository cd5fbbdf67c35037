import AliosThings.Rhino.ObjInv

/-!
# What a call does to the tasks it does not run

A kernel call rewrites the wait of few tasks: its caller, the task it names, the
waiters of the object it works on, on a tick the tasks whose time is up, and on a
deletion the first waiters of the mutexes handed on. Every other task keeps its
state, the object it waits on and its `blk_state` (`waitRec_call`): the record that
`pend_state_end_proc` reads when a call that blocked returns.

Two consequences say what a blocked `krhino_sem_take` will return. A task waiting on
a semaphore still waits on it after a call, is deleted, or is ready or suspended, and
it ends its wait with `BLK_FINISH` only when a give on that semaphore hands it the
unit (`waitsOn_sem_call`). A ready or suspended task that is not running stays ready
or suspended with its `blk_state`, or is deleted (`resumable_call`): until it runs,
nothing changes what its blocked call returns.
-/

namespace Rhino

/-- The state of a task, the object it waits on, and its `blk_state`. -/
def KTask.waitRec (task : KTask) : TaskState × Option ObjRef × BlkState :=
  (task.taskState, task.blkObj, task.blkState)

/-- `K_RDY` or `K_SUSPENDED`: the task neither waits nor sleeps; it runs again once
it is resumed and the most urgent. -/
def KTask.Resumable (task : KTask) : Prop :=
  task.taskState = .rdy ∨ task.taskState = .suspended

instance : DecidablePred KTask.Resumable := fun _ =>
  inferInstanceAs (Decidable (_ ∨ _))

/-- The task ended its wait with `st`: it is ready or suspended, and when it runs
`pend_state_end_proc` reads `st`. -/
def KTask.Ended (st : BlkState) (task : KTask) : Prop :=
  task.Resumable ∧ task.blkState = st

instance (st : BlkState) : DecidablePred (KTask.Ended st) := fun _ =>
  inferInstanceAs (Decidable (_ ∧ _))

/-- `b` waits as `a` does: on the same object, with the same `blk_state`, waiting in
both or neither, ready or suspended in both or neither. -/
def KTask.WaitsAlike (a b : KTask) : Prop :=
  b.blkObj = a.blkObj ∧ b.blkState = a.blkState ∧ (b.IsPend ↔ a.IsPend) ∧ (b.Resumable ↔ a.Resumable)

/-- The object whose waiters a call may wake. -/
def KCall.wakeObj : KCall → Option ObjRef
  | .mutexUnlock m | .mutexDel m => some (.mutex m)
  | .bufQueueSend q _ _ | .bufQueueDel q => some (.bufQueue q)
  | .semDel s | .semGive s | .semGiveAll s => some (.sem s)
  | .queueDel q | .queueBackSend q _ | .queueAllSend q _ => some (.queue q)
  | .eventDel e | .eventSet e _ _ => some (.event e)
  | _ => none

/-- The task a call names. -/
def KCall.target : KCall → Option Nat
  | .taskCreate t _ _ _ | .taskSuspend t | .taskResume t | .taskWaitAbort t | .taskDel t => some t
  | _ => none

/-- The task a call hands a unit of semaphore `s` to: `krhino_sem_give` on a
semaphore with waiters gives its unit to the first of them. -/
def KCall.semHandedTo (k : Kernel) (s : Nat) : KCall → Option Nat
  | .semGive s' => if s' = s ∧ (k.sems s).blkObj.objType = .sem then (k.sems s).blkObj.blkList.head? else none
  | _ => none

/-- The call gives task `u` a unit of `s`: `krhino_sem_give` to its first waiter, or
`krhino_sem_give_all` to every waiter. -/
def KCall.GivesTo (k : Kernel) (s u : Nat) (c : KCall) : Prop :=
  c.semHandedTo k s = some u ∨ (c = .semGiveAll s ∧ (k.sems s).blkObj.objType = .sem)

namespace KTask

variable {a b : KTask}

theorem Resumable.not_isPend (h : a.Resumable) : ¬a.IsPend := by
  rcases h with h | h <;> simp [IsPend, h]

theorem Resumable.ne_deleted (h : a.Resumable) : a.taskState ≠ .deleted := by
  rcases h with h | h <;> simp [h]

theorem Resumable.not_isSleep (h : a.Resumable) : ¬a.IsSleep := by
  rcases h with h | h <;> simp [IsSleep, h]

theorem waitsOn_iff_of_waitRec (h : a.waitRec = b.waitRec) {r : ObjRef} : a.WaitsOn r ↔ b.WaitsOn r := by
  simp only [waitRec, Prod.mk.injEq] at h
  simp [WaitsOn, IsPend, h.1, h.2.1]

theorem resumable_iff_of_waitRec (h : a.waitRec = b.waitRec) : a.Resumable ↔ b.Resumable := by
  simp only [waitRec, Prod.mk.injEq] at h
  simp [Resumable, h.1]

theorem isPend_iff_of_waitRec (h : a.waitRec = b.waitRec) : a.IsPend ↔ b.IsPend := by
  simp only [waitRec, Prod.mk.injEq] at h
  simp [IsPend, h.1]

theorem taskState_of_waitRec (h : a.waitRec = b.waitRec) : a.taskState = b.taskState := by
  simp only [waitRec, Prod.mk.injEq] at h
  exact h.1

theorem blkState_of_waitRec (h : a.waitRec = b.waitRec) : a.blkState = b.blkState := by
  simp only [waitRec, Prod.mk.injEq] at h
  exact h.2.2

theorem Ended.of_waitRec {st : BlkState} (hb : b.Ended st) (h : a.waitRec = b.waitRec) : a.Ended st :=
  ⟨(resumable_iff_of_waitRec h).mpr hb.1, (blkState_of_waitRec h).trans hb.2⟩

theorem Ended.ne_deleted {st : BlkState} (h : a.Ended st) : a.taskState ≠ .deleted :=
  h.1.ne_deleted

/-- Records that wait alike: on the same object, with the same `blk_state`, and both
waiting, both ready or suspended, or neither. -/
theorem WaitsAlike.of_waitRec (h : a.waitRec = b.waitRec) : a.WaitsAlike b :=
  ⟨(congrArg (·.2.1) h).symm, (blkState_of_waitRec h).symm, (isPend_iff_of_waitRec h).symm,
    (resumable_iff_of_waitRec h).symm⟩

theorem WaitsAlike.refl (a : KTask) : a.WaitsAlike a := ⟨rfl, rfl, Iff.rfl, Iff.rfl⟩

theorem WaitsAlike.waitsOn {r : ObjRef} (h : a.WaitsAlike b) (ha : a.WaitsOn r) : b.WaitsOn r :=
  ⟨h.2.2.1.mpr ha.1, h.1.trans ha.2⟩

end KTask

namespace Kernel

variable {k : Kernel} {u : Nat}

theorem WaitInv.not_mem_of_not_waitsOn (hw : k.WaitInv) {r : ObjRef} (h : ¬(k.tasks u).WaitsOn r) :
    u ∉ (k.blkObj r).blkList :=
  fun hm => h (hw.waitsOn_of_mem hm)

theorem WaitInv.mem_sem_iff (hw : k.WaitInv) {s : Nat} :
    u ∈ (k.sems s).blkObj.blkList ↔ (k.tasks u).WaitsOn (.sem s) :=
  (hw.mem (.sem s) u not_false).trans and_comm

theorem WaitInv.ne_of_mem (hw : k.WaitInv) {r : ObjRef} (h : ¬(k.tasks u).WaitsOn r) {w : Nat}
    (hm : w ∈ (k.blkObj r).blkList) : u ≠ w := by
  rintro rfl
  exact h (hw.waitsOn_of_mem hm)

/-! ### Steps that keep a task's record -/

theorem waitRec_setTask_ne {v : Nat} (hv : u ≠ v) (f : KTask → KTask) :
    ((k.setTask v f).tasks u).waitRec = (k.tasks u).waitRec := by
  rw [setTask_tasks, if_neg hv]

/-- A rewrite of other fields than the state, the wait and `blk_state`. -/
theorem waitRec_setTask_keep {v : Nat} {f : KTask → KTask} (hf : ∀ x, (f x).waitRec = x.waitRec) :
    ((k.setTask v f).tasks u).waitRec = (k.tasks u).waitRec := by
  rw [setTask_tasks]
  split
  · subst_vars
    exact hf _
  · rfl

@[simp] theorem waitRec_tickListRm (t : Nat) : ((k.tickListRm t).tasks u).waitRec = (k.tasks u).waitRec := by
  unfold tickListRm
  split
  · exact waitRec_setTask_keep fun _ => by rfl
  · rfl

@[simp] theorem waitRec_tickListInsert (t time : Nat) :
    ((k.tickListInsert t time).tasks u).waitRec = (k.tasks u).waitRec := by
  unfold tickListInsert
  split
  · by_cases hu : u = t <;> simp [hu, KTask.waitRec]
  · rfl

/-- A priority change moves priorities and the order of blocked lists only. -/
@[simp] theorem waitRec_taskPriChangeLoop (fuel : Nat) :
    ∀ (k : Kernel) (t newPri : Nat), ((taskPriChangeLoop fuel k t newPri).1.tasks u).waitRec = (k.tasks u).waitRec := by
  induction fuel with
  | zero => intro k _ _; rfl
  | succ fuel ih =>
    intro k t newPri
    have hprio : ∀ k : Kernel, ((k.setTask t fun task => { task with prio := newPri }).tasks u).waitRec =
        (k.tasks u).waitRec := fun _ => waitRec_setTask_keep fun _ => by rfl
    unfold taskPriChangeLoop
    split
    · rfl
    split
    · dsimp only
      split <;> exact hprio _
    all_goals dsimp only
    · exact hprio k
    · exact hprio k
    · exact hprio k
    -- a waiter: reordered, then perhaps the owner
    all_goals try split
    all_goals first
      | rfl
      | exact (ih _ _ _).trans ((congrArg (fun l => (l u).waitRec) (pendListReorder_tasks _ t)).trans (hprio k))
      | exact (congrArg (fun l => (l u).waitRec) (pendListReorder_tasks _ t)).trans (hprio k)

@[simp] theorem waitRec_mutexRelease (t : Nat) (rel : Option Nat) :
    ((k.mutexRelease t rel).tasks u).waitRec = (k.tasks u).waitRec := by
  unfold mutexRelease
  rcases k.mutexPriLook t rel with ⟨newPri, chain⟩
  have h₁ : ((k.setTask t fun task => { task with mutexList := chain }).tasks u).waitRec = (k.tasks u).waitRec :=
    waitRec_setTask_keep fun _ => by rfl
  dsimp only
  split
  · exact (waitRec_taskPriChangeLoop _ _ _ _).trans h₁
  · exact h₁

@[simp] theorem waitRec_mutexTaskPriReset (t : Nat) :
    ((k.mutexTaskPriReset t).tasks u).waitRec = (k.tasks u).waitRec := by
  unfold mutexTaskPriReset
  split
  · split
    · split
      · split
        · exact waitRec_mutexRelease _ _
        · rfl
      · rfl
    · rfl
  · rfl

@[simp] theorem taskState_mutexTaskPriReset (t : Nat) :
    ((k.mutexTaskPriReset t).tasks u).taskState = (k.tasks u).taskState :=
  KTask.taskState_of_waitRec (waitRec_mutexTaskPriReset t)

@[simp] theorem blkState_mutexTaskPriReset (t : Nat) :
    ((k.mutexTaskPriReset t).tasks u).blkState = (k.tasks u).blkState :=
  KTask.blkState_of_waitRec (waitRec_mutexTaskPriReset t)

@[simp] theorem waitRec_timeSliceUpdate : ((k.timeSliceUpdate).tasks u).waitRec = (k.tasks u).waitRec := by
  unfold timeSliceUpdate
  dsimp only
  split
  · rfl
  rename_i t rest _
  split
  · rfl
  split
  · rfl
  generalize (if 0 < (k.tasks t).timeSlice then (k.tasks t).timeSlice - 1 else (k.tasks t).timeSlice) = slice
  split <;> by_cases hu : u = t <;> simp [hu, KTask.waitRec]

/-! ### Steps on other tasks -/

section Others

variable {v : Nat} (hv : u ≠ v)
include hv

theorem waitRec_pendTaskLeave_ne : ((k.pendTaskLeave v).tasks u).waitRec = (k.tasks u).waitRec := by
  unfold pendTaskLeave
  split
  · rw [waitRec_setTask_ne hv, readyListAdd_tasks, blkListRm_tasks]
  · rw [waitRec_setTask_ne hv, blkListRm_tasks]
  · rfl

theorem waitRec_pendTaskEnd_ne (st : BlkState) : ((k.pendTaskEnd v st).tasks u).waitRec = (k.tasks u).waitRec := by
  unfold pendTaskEnd
  rw [waitRec_setTask_ne hv, waitRec_tickListRm, waitRec_pendTaskLeave_ne hv]

theorem waitRec_taskMsgRecv_ne (p : Nat) : ((k.taskMsgRecv v p).tasks u).waitRec = (k.tasks u).waitRec :=
  (waitRec_pendTaskEnd_ne hv .finish).trans (waitRec_setTask_ne hv _)

theorem waitRec_tickExpire_ne : ((k.tickExpire v).tasks u).waitRec = (k.tasks u).waitRec := by
  unfold tickExpire
  split
  · rw [readyListAdd_tasks, waitRec_tickListRm, waitRec_setTask_ne hv]
  · rw [waitRec_setTask_ne hv, waitRec_mutexTaskPriReset, waitRec_setTask_ne hv, readyListAdd_tasks,
      blkListRm_tasks, waitRec_tickListRm]
  · rw [waitRec_setTask_ne hv, waitRec_mutexTaskPriReset, waitRec_setTask_ne hv, blkListRm_tasks,
      waitRec_tickListRm]
  · rw [waitRec_tickListRm, waitRec_setTask_ne hv]
  · rfl

/-- Blocking task `v` on `r`. -/
theorem waitRec_pendToBlkObj_ne (r : ObjRef) (timeout : Nat) :
    ((k.pendToBlkObj r v timeout).tasks u).waitRec = (k.tasks u).waitRec := by
  unfold pendToBlkObj
  dsimp only
  set k₁ := k.setTask v fun task => { task with blkObj := some r, pendTimeout := timeout }
  set k₂ := if timeout ≠ rhinoWaitForever then k₁.tickListInsert v timeout else k₁ with hk₂
  have h₂ : (k₂.tasks u).waitRec = (k.tasks u).waitRec := by
    rw [hk₂]
    split
    · rw [waitRec_tickListInsert, waitRec_setTask_ne hv]
    · rw [waitRec_setTask_ne hv]
  split <;> simp only [setBlkList_tasks, readyListRm_tasks, waitRec_setTask_ne hv, h₂]

end Others

/-! ### Loops over tasks that do not include `u` -/

/-- A loop that ends, first to last, the wait of each task of its list with `st`: the
loops of `pend_task_rm` and of `pend_task_wakeup` over a blocked list. -/
structure EndsEach (st : BlkState) (f : Kernel → List Nat → Kernel) : Prop where
  nil : ∀ k, f k [] = k
  cons : ∀ k v l, f k (v :: l) = f (k.pendTaskEnd v st) l

theorem endsEach_pendTaskRmAll : EndsEach .del pendTaskRmAll := ⟨fun _ => rfl, fun _ _ _ => rfl⟩

theorem endsEach_pendTaskWakeupAll : EndsEach .finish pendTaskWakeupAll := ⟨fun _ => rfl, fun _ _ _ => rfl⟩

section Loops

variable {l : List Nat} (hl : u ∉ l)
include hl

theorem EndsEach.waitRec {st : BlkState} {f : Kernel → List Nat → Kernel} (hf : EndsEach st f) :
    ((f k l).tasks u).waitRec = (k.tasks u).waitRec := by
  induction l generalizing k with
  | nil => rw [hf.nil]
  | cons v l ih =>
    rw [List.mem_cons, not_or] at hl
    rw [hf.cons]
    exact (ih hl.2).trans (waitRec_pendTaskEnd_ne hl.1 st)

theorem waitRec_taskMsgRecvAll (p : Nat) : ((k.taskMsgRecvAll p l).tasks u).waitRec = (k.tasks u).waitRec := by
  induction l generalizing k with
  | nil => rfl
  | cons v l ih =>
    rw [List.mem_cons, not_or] at hl
    exact (ih hl.2).trans (waitRec_taskMsgRecv_ne hl.1 p)

theorem waitRec_eventSetWake (e : Nat) (cur : UInt32) :
    ((k.eventSetWake e cur l).tasks u).waitRec = (k.tasks u).waitRec := by
  induction l generalizing k with
  | nil => rfl
  | cons v l ih =>
    rw [List.mem_cons, not_or] at hl
    unfold eventSetWake
    dsimp only
    split
    · rw [ih hl.2]
      have h₁ := (waitRec_pendTaskEnd_ne hl.1 .finish (k := k.setTask v fun task => { task with pendInfo := cur })).trans
        (waitRec_setTask_ne hl.1 _)
      split
      · rw [setEvent_tasks]
        exact h₁
      · exact h₁
    · exact ih hl.2

theorem waitRec_tickListUpdate_go : ((tickListUpdate.go k l).tasks u).waitRec = (k.tasks u).waitRec := by
  induction l generalizing k with
  | nil => rfl
  | cons v l ih =>
    rw [List.mem_cons, not_or] at hl
    unfold tickListUpdate.go
    split
    · exact (ih hl.2).trans (waitRec_tickExpire_ne hl.1)
    · rfl

end Loops

/-- `task_mutex_free` wakes the first waiter of each mutex the task holds; a task
that waits on no mutex is not one of them. -/
theorem waitRec_taskMutexFree (hw : k.WaitInv) (hm : ∀ m, ¬(k.tasks u).WaitsOn (.mutex m)) (t : Nat) :
    ((k.taskMutexFree t).tasks u).waitRec = (k.tasks u).waitRec := by
  unfold taskMutexFree
  generalize (k.tasks t).mutexList = ms
  induction ms generalizing k with
  | nil => rfl
  | cons m ms ih =>
    unfold taskMutexFree.go
    split
    · rename_i w _ hl
      have hmem : w ∈ (k.blkObj (.mutex m)).blkList := by
        show w ∈ (k.mutexes m).blkObj.blkList
        rw [hl]
        exact List.mem_cons_self
      have hwu : u ≠ w := by
        rintro rfl
        exact hm m (hw.waitsOn_of_mem hmem)
      have hw₁ := WaitInvE.setTask_of (WaitInvE.setMutex (hw.pendTaskEnd (hw.not_sleep_of_mem hmem) .finish)
        (m := m) (f := fun mx => { mx with mutexTask := some w }) fun _ => ⟨rfl, rfl⟩)
        (t := w) (f := fun task => { task with mutexList := m :: task.mutexList })
        ⟨Iff.rfl, Iff.rfl, rfl, rfl, rfl, rfl⟩
      have hrec : ((((k.pendTaskWakeup w).setMutex m fun mx => { mx with mutexTask := some w }).setTask w
          fun task => { task with mutexList := m :: task.mutexList }).tasks u).waitRec = (k.tasks u).waitRec := by
        rw [waitRec_setTask_ne hwu, setMutex_tasks]
        exact waitRec_pendTaskEnd_ne hwu .finish
      exact (ih hw₁ fun m' h => hm m' ((KTask.waitsOn_iff_of_waitRec hrec).mp h)).trans hrec
    · exact ih (WaitInvE.setMutex hw fun _ => ⟨rfl, rfl⟩) hm

/-! ### Services, for a task they leave alone -/

section Services

theorem waitRec_krhinoTaskCreate {t : Nat} (ht : u ≠ t) (prio ticks : Nat) (autorun : Bool) :
    ((k.krhinoTaskCreate t prio ticks autorun).1.tasks u).waitRec = (k.tasks u).waitRec := by
  unfold krhinoTaskCreate taskCreate
  split_ifs <;> simp [ht]

theorem waitRec_krhinoTaskSleep (ha : u ≠ k.activeTask) (ticks : Nat) :
    ((k.krhinoTaskSleep ticks).1.tasks u).waitRec = (k.tasks u).waitRec := by
  unfold krhinoTaskSleep
  split_ifs <;> simp [ha]

theorem waitRec_krhinoTaskSuspend {t : Nat} (ht : u ≠ t) :
    ((k.krhinoTaskSuspend t).1.tasks u).waitRec = (k.tasks u).waitRec := by
  unfold krhinoTaskSuspend taskSuspend
  split
  · rfl
  split
  · rfl
  cases (k.tasks t).taskState with
  | rdy | sleep | pend => simp [ht]
  | suspended | sleepSuspended | pendSuspended =>
    by_cases hc : (k.tasks t).suspendCount = suspendNestedMax
    · simp only [hc, if_true]
      split <;> rfl
    · simp [hc, ht]
  | seed | deleted => simp only []; split <;> rfl

theorem waitRec_krhinoTaskResume {t : Nat} (ht : u ≠ t) :
    ((k.krhinoTaskResume t).1.tasks u).waitRec = (k.tasks u).waitRec := by
  unfold krhinoTaskResume
  cases (k.tasks t).taskState with
  | rdy | sleep | pend | seed | deleted => rfl
  | suspended | sleepSuspended | pendSuspended => simp only []; split <;> simp [ht]

/-- A priority change rewrites priorities and the order of lists, on every task. -/
theorem waitRec_krhinoTaskPriChange (t pri : Nat) :
    ((k.krhinoTaskPriChange t pri).1.tasks u).waitRec = (k.tasks u).waitRec := by
  unfold krhinoTaskPriChange
  split_ifs
  · rfl
  · rfl
  · rfl
  · rfl
  have h₁ : (((k.setTask t fun task => { task with bPrio := pri }).taskPriChange t
      (k.mutexPriLimit t pri)).1.tasks u).waitRec = (k.tasks u).waitRec :=
    (waitRec_taskPriChangeLoop _ _ _ _).trans (waitRec_setTask_keep fun _ => by rfl)
  dsimp only
  split
  · exact h₁
  · rw [coreSched_tasks]
    exact h₁

theorem waitRec_krhinoTaskWaitAbort {t : Nat} (ht : u ≠ t) :
    ((k.krhinoTaskWaitAbort t).1.tasks u).waitRec = (k.tasks u).waitRec := by
  unfold krhinoTaskWaitAbort
  split
  · rfl
  cases (k.tasks t).taskState with
  | seed | deleted => rfl
  | rdy => simp
  | suspended | sleep | sleepSuspended => simp [ht]
  | pend | pendSuspended => simp [ht]

theorem waitRec_krhinoTaskDel (hw : k.WaitInv) (hm : ∀ m, ¬(k.tasks u).WaitsOn (.mutex m)) {t : Nat}
    (ht : u ≠ t) : ((k.krhinoTaskDel t).1.tasks u).waitRec = (k.tasks u).waitRec := by
  unfold krhinoTaskDel
  split_ifs
  · rfl
  · rfl
  · rfl
  · rfl
  -- the mutexes go to their first waiters, of which `u` is none; then `t` leaves
  have h₁ := waitRec_taskMutexFree hw hm t
  dsimp only
  generalize k.taskMutexFree t = k₁ at h₁ ⊢
  unfold taskDelSwitch
  cases (k₁.tasks t).taskState <;> simp [ht, h₁]

theorem waitRec_krhinoSchedEnable : ((k.krhinoSchedEnable).1.tasks u).waitRec = (k.tasks u).waitRec := by
  unfold krhinoSchedEnable
  split_ifs
  · rfl
  · rfl
  dsimp only
  split
  · rfl
  · rw [coreSched_tasks]

/-- The time slice and the exit from the interrupt keep every task's record: what the
tick does to tasks is the walk of the tick list. -/
theorem waitRec_tick_eq :
    ((k.krhinoIntrptEnter.krhinoTickProc.krhinoIntrptExit).tasks u).waitRec =
      ((k.krhinoIntrptEnter.tickListUpdate 1).tasks u).waitRec := by
  simp only [krhinoIntrptExit_eq, coreSched_tasks, krhinoTickProc, waitRec_timeSliceUpdate]

/-- The tick wakes tasks of the tick list only. -/
theorem waitRec_tick (hw : k.WaitInv) (hh : (k.tasks u).tickHead = false) :
    ((k.krhinoIntrptEnter.krhinoTickProc.krhinoIntrptExit).tasks u).waitRec = (k.tasks u).waitRec := by
  have hl : u ∉ k.tickList := fun hm => by simp [(hw.tick_mem u not_false).mp hm] at hh
  exact waitRec_tick_eq.trans (waitRec_tickListUpdate_go hl)

theorem waitRec_krhinoMutexLock (ha : u ≠ k.activeTask) (m ticks : Nat) :
    ((k.krhinoMutexLock m ticks).1.tasks u).waitRec = (k.tasks u).waitRec := by
  unfold krhinoMutexLock
  dsimp only
  split
  · rfl
  split
  · rfl
  split
  · split <;> rfl
  split
  · simp [ha]
  split
  · rfl
  split
  · rfl
  -- the owner may take the caller's priority; then the caller blocks
  rw [coreSched_tasks, waitRec_pendToBlkObj_ne ha]
  split
  · exact waitRec_taskPriChangeLoop _ _ _ _
  · rfl

theorem waitRec_krhinoMutexUnlock (hw : k.WaitInv) {m : Nat} (hm : ¬(k.tasks u).WaitsOn (.mutex m)) :
    ((k.krhinoMutexUnlock m).1.tasks u).waitRec = (k.tasks u).waitRec := by
  unfold krhinoMutexUnlock
  dsimp only
  split
  · rfl
  split
  · rfl
  split
  · rfl
  split
  · rfl
  set k₁ := k.setMutex m fun mx => { mx with ownerNested :=
      ((k.mutexes m).ownerNested + mutexNestedMax) % (mutexNestedMax + 1) }
  have h₁ : k₁.WaitInv := WaitInvE.setMutex hw fun _ => ⟨rfl, rfl⟩
  have h₂ := h₁.mutexRelease k.activeTask (some m)
  have hr₂ : ((k₁.mutexRelease k.activeTask (some m)).tasks u).waitRec = (k.tasks u).waitRec :=
    waitRec_mutexRelease _ _
  generalize k₁.mutexRelease k.activeTask (some m) = k₂ at h₂ hr₂ ⊢
  -- the first waiter takes the mutex, and `u` does not wait on it
  split
  · simpa using hr₂
  · rename_i w ws hl
    have hwu : u ≠ w := h₂.ne_of_mem ((KTask.waitsOn_iff_of_waitRec hr₂).not.mpr hm) (r := .mutex m)
      (by show w ∈ (k₂.mutexes m).blkObj.blkList; rw [hl]; exact List.mem_cons_self)
    simp [hwu, pendTaskWakeup, waitRec_pendTaskEnd_ne hwu, hr₂]

theorem waitRec_krhinoMutexDel (hw : k.WaitInv) {m : Nat} (hm : ¬(k.tasks u).WaitsOn (.mutex m)) :
    ((k.krhinoMutexDel m).1.tasks u).waitRec = (k.tasks u).waitRec := by
  unfold krhinoMutexDel
  split_ifs
  · rfl
  · rfl
  dsimp only
  set k₁ := k.setMutex m fun mx => { mx with blkObj := { mx.blkObj with objType := .none } }
  have h₁ : k₁.WaitInv := WaitInvE.setMutex hw fun _ => ⟨rfl, rfl⟩
  have hr₁ : (k₁.tasks u).waitRec = (k.tasks u).waitRec := rfl
  -- the owner gives up what the waiters lent it; then the waiters, `u` not among them, are woken
  split
  · rename_i o _
    have hr₂ : ((k₁.mutexRelease o (some m)).tasks u).waitRec = (k.tasks u).waitRec :=
      (waitRec_mutexRelease _ _).trans hr₁
    have hn : u ∉ ((k₁.mutexRelease o (some m)).mutexes m).blkObj.blkList :=
      (h₁.mutexRelease o (some m)).not_mem_of_not_waitsOn ((KTask.waitsOn_iff_of_waitRec hr₂).not.mpr hm)
    rw [coreSched_tasks]
    exact (endsEach_pendTaskRmAll.waitRec hn).trans hr₂
  · have hn : u ∉ (k₁.mutexes m).blkObj.blkList :=
      h₁.not_mem_of_not_waitsOn ((KTask.waitsOn_iff_of_waitRec hr₁).not.mpr hm)
    rw [coreSched_tasks]
    exact (endsEach_pendTaskRmAll.waitRec hn).trans hr₁

theorem waitRec_krhinoBufQueueSend (hw : k.WaitInv) {q : Nat} (hq : ¬(k.tasks u).WaitsOn (.bufQueue q))
    (msg : List UInt8) (size : Nat) :
    ((k.krhinoBufQueueSend q msg size).1.tasks u).waitRec = (k.tasks u).waitRec := by
  have hn : u ∉ (k.bufQueues q).blkObj.blkList := hw.not_mem_of_not_waitsOn hq
  unfold krhinoBufQueueSend bufQueueSend
  dsimp only
  split
  · rfl
  split
  · rfl
  split
  · rfl
  split
  · split <;> rfl
  · rename_i w ws hl
    rw [hl] at hn
    simp [List.ne_of_not_mem_cons hn, pendTaskWakeup, waitRec_pendTaskEnd_ne (List.ne_of_not_mem_cons hn)]

theorem waitRec_krhinoBufQueueRecv (ha : u ≠ k.activeTask) (q ticks : Nat) :
    ((k.krhinoBufQueueRecv q ticks).1.tasks u).waitRec = (k.tasks u).waitRec := by
  unfold krhinoBufQueueRecv
  dsimp only
  split_ifs
  · rfl
  · rfl
  · rfl
  · rfl
  · rfl
  · rw [coreSched_tasks, waitRec_pendToBlkObj_ne ha]

theorem waitRec_krhinoBufQueueDel (hw : k.WaitInv) {q : Nat} (hq : ¬(k.tasks u).WaitsOn (.bufQueue q)) :
    ((k.krhinoBufQueueDel q).1.tasks u).waitRec = (k.tasks u).waitRec := by
  have hn : u ∉ (k.bufQueues q).blkObj.blkList := hw.not_mem_of_not_waitsOn hq
  unfold krhinoBufQueueDel
  split_ifs
  · rfl
  · rfl
  simp [endsEach_pendTaskRmAll.waitRec hn]

theorem waitRec_krhinoSemDel (hw : k.WaitInv) {s : Nat} (hs : ¬(k.tasks u).WaitsOn (.sem s)) :
    ((k.krhinoSemDel s).1.tasks u).waitRec = (k.tasks u).waitRec := by
  have hn : u ∉ (k.sems s).blkObj.blkList := hw.not_mem_of_not_waitsOn hs
  unfold krhinoSemDel
  split_ifs
  · rfl
  · rfl
  simp [endsEach_pendTaskRmAll.waitRec hn]

theorem waitRec_semGive (hw : k.WaitInv) {s : Nat} (hs : ¬(k.tasks u).WaitsOn (.sem s)) (wakeAll : Bool) :
    ((k.semGive s wakeAll).1.tasks u).waitRec = (k.tasks u).waitRec := by
  have hn : u ∉ (k.sems s).blkObj.blkList := hw.not_mem_of_not_waitsOn hs
  unfold semGive
  dsimp only
  split
  · rfl
  split
  · split <;> rfl
  · rename_i w ws hl
    rw [hl] at hn
    split
    · simp [endsEach_pendTaskWakeupAll.waitRec hn]
    · simp [pendTaskWakeup, waitRec_pendTaskEnd_ne (List.ne_of_not_mem_cons hn)]

theorem waitRec_krhinoSemTake (ha : u ≠ k.activeTask) (s ticks : Nat) :
    ((k.krhinoSemTake s ticks).1.tasks u).waitRec = (k.tasks u).waitRec := by
  unfold krhinoSemTake
  split_ifs
  · rfl
  · rfl
  · rfl
  · rfl
  · rfl
  · rw [coreSched_tasks, waitRec_pendToBlkObj_ne ha]

theorem waitRec_krhinoQueueDel (hw : k.WaitInv) {q : Nat} (hq : ¬(k.tasks u).WaitsOn (.queue q)) :
    ((k.krhinoQueueDel q).1.tasks u).waitRec = (k.tasks u).waitRec := by
  have hn : u ∉ (k.queues q).blkObj.blkList := hw.not_mem_of_not_waitsOn hq
  unfold krhinoQueueDel
  split_ifs
  · rfl
  · rfl
  simp [endsEach_pendTaskRmAll.waitRec hn]

theorem waitRec_msgSend (hw : k.WaitInv) {q : Nat} (hq : ¬(k.tasks u).WaitsOn (.queue q)) (p : Nat)
    (wakeAll : Bool) : ((k.msgSend q p wakeAll).1.tasks u).waitRec = (k.tasks u).waitRec := by
  have hn : u ∉ (k.queues q).blkObj.blkList := hw.not_mem_of_not_waitsOn hq
  unfold msgSend
  dsimp only
  split
  · rfl
  split
  · rfl
  split
  · rfl
  · rename_i w ws hl
    rw [hl] at hn
    split
    · simp [waitRec_taskMsgRecvAll hn]
    · simp [waitRec_taskMsgRecv_ne (List.ne_of_not_mem_cons hn)]

theorem waitRec_krhinoQueueRecv (ha : u ≠ k.activeTask) (q ticks : Nat) :
    ((k.krhinoQueueRecv q ticks).1.tasks u).waitRec = (k.tasks u).waitRec := by
  unfold krhinoQueueRecv
  dsimp only
  split_ifs
  · rfl
  · rfl
  · rfl
  · rfl
  · rfl
  · rw [coreSched_tasks, waitRec_pendToBlkObj_ne ha]

theorem waitRec_krhinoEventDel (hw : k.WaitInv) {e : Nat} (he : ¬(k.tasks u).WaitsOn (.event e)) :
    ((k.krhinoEventDel e).1.tasks u).waitRec = (k.tasks u).waitRec := by
  have hn : u ∉ (k.events e).blkObj.blkList := hw.not_mem_of_not_waitsOn he
  unfold krhinoEventDel
  split_ifs
  · rfl
  · rfl
  simp [endsEach_pendTaskRmAll.waitRec hn]

theorem waitRec_krhinoEventGet (ha : u ≠ k.activeTask) (e : Nat) (flags : UInt32) (opt ticks : Nat) :
    ((k.krhinoEventGet e flags opt ticks).1.tasks u).waitRec = (k.tasks u).waitRec := by
  unfold krhinoEventGet
  dsimp only
  split_ifs
  · rfl
  · rfl
  · rfl
  · rfl
  · rfl
  · rfl
  · rfl
  · rw [coreSched_tasks, waitRec_pendToBlkObj_ne ha, waitRec_setTask_ne ha]

theorem waitRec_krhinoEventSet (hw : k.WaitInv) {e : Nat} (he : ¬(k.tasks u).WaitsOn (.event e))
    (flags : UInt32) (opt : Nat) :
    ((k.krhinoEventSet e flags opt).1.tasks u).waitRec = (k.tasks u).waitRec := by
  have hn : u ∉ (k.events e).blkObj.blkList := hw.not_mem_of_not_waitsOn he
  unfold krhinoEventSet eventSet
  dsimp only
  split
  · rfl
  split
  · rfl
  split
  · rfl
  · simp [waitRec_eventSetWake hn]

/-- A call leaves the record of a task it has no business with: not the caller, not
the task it names, no waiter of the object whose waiters it wakes, on a tick no task
of the tick list, and on a deletion no waiter of a mutex. -/
theorem waitRec_call (hw : k.WaitInv) {c : KCall} (ha : u ≠ k.activeTask) (ht : c.target ≠ some u)
    (hr : ∀ r, c.wakeObj = some r → ¬(k.tasks u).WaitsOn r)
    (htick : c = .tick → (k.tasks u).tickHead = false)
    (hm : (∃ t, c = .taskDel t) → ∀ m, ¬(k.tasks u).WaitsOn (.mutex m)) :
    ((k.call c).1.tasks u).waitRec = (k.tasks u).waitRec := by
  have hne : ∀ t, c.target = some t → u ≠ t := fun t h hu => ht (hu ▸ h)
  cases c with
  | taskCreate t prio ticks autorun => exact waitRec_krhinoTaskCreate (hne t rfl) prio ticks autorun
  | taskSleep ticks => exact waitRec_krhinoTaskSleep ha ticks
  | taskYield => simp [call, krhinoTaskYield]
  | taskSuspend t => exact waitRec_krhinoTaskSuspend (hne t rfl)
  | taskResume t => exact waitRec_krhinoTaskResume (hne t rfl)
  | taskPriChange t pri => exact waitRec_krhinoTaskPriChange t pri
  | taskWaitAbort t => exact waitRec_krhinoTaskWaitAbort (hne t rfl)
  | taskDel t => exact waitRec_krhinoTaskDel hw (hm ⟨t, rfl⟩) (hne t rfl)
  | schedDisable => simp only [call, krhinoSchedDisable]; split_ifs <;> rfl
  | schedEnable => exact waitRec_krhinoSchedEnable
  | tick => exact waitRec_tick hw (htick rfl)
  | mutexCreate m => rfl
  | mutexLock m ticks => exact waitRec_krhinoMutexLock ha m ticks
  | mutexUnlock m => exact waitRec_krhinoMutexUnlock hw (hr _ rfl)
  | mutexDel m => exact waitRec_krhinoMutexDel hw (hr _ rfl)
  | bufQueueCreate q mem size maxMsg => simp only [call, krhinoBufQueueCreate, bufQueueCreate]; split_ifs <;> rfl
  | fixBufQueueCreate q mem msgSize msgNum =>
    simp only [call, krhinoFixBufQueueCreate, bufQueueCreate]; split_ifs <;> rfl
  | bufQueueSend q msg size => exact waitRec_krhinoBufQueueSend hw (hr _ rfl) msg size
  | bufQueueRecv q ticks => exact waitRec_krhinoBufQueueRecv ha q ticks
  | bufQueueFlush q => simp only [call, krhinoBufQueueFlush]; split_ifs <;> rfl
  | bufQueueDel q => exact waitRec_krhinoBufQueueDel hw (hr _ rfl)
  | semCreate s count => rfl
  | semDel s => exact waitRec_krhinoSemDel hw (hr _ rfl)
  | semGive s => exact waitRec_semGive hw (hr _ rfl) false
  | semGiveAll s => exact waitRec_semGive hw (hr _ rfl) true
  | semTake s ticks => exact waitRec_krhinoSemTake ha s ticks
  | semCountSet s count => simp only [call, krhinoSemCountSet]; split_ifs <;> rfl
  | queueCreate q start msgNum => simp only [call, krhinoQueueCreate]; split_ifs <;> rfl
  | queueDel q => exact waitRec_krhinoQueueDel hw (hr _ rfl)
  | queueBackSend q p => exact waitRec_msgSend hw (hr _ rfl) p false
  | queueAllSend q p => exact waitRec_msgSend hw (hr _ rfl) p true
  | queueRecv q ticks => exact waitRec_krhinoQueueRecv ha q ticks
  | queueFlush q => simp only [call, krhinoQueueFlush]; split_ifs <;> rfl
  | eventCreate e flags => rfl
  | eventDel e => exact waitRec_krhinoEventDel hw (hr _ rfl)
  | eventGet e flags opt ticks => exact waitRec_krhinoEventGet ha e flags opt ticks
  | eventSet e flags opt => exact waitRec_krhinoEventSet hw (hr _ rfl) flags opt

end Services

/-! ### Waits that a call ends -/

section Ends

theorem ended_pendTaskEnd_self (hp : (k.tasks u).IsPend) (st : BlkState) :
    ((k.pendTaskEnd u st).tasks u).Ended st := by
  rcases hp with hp | hp <;> simp [pendTaskEnd, pendTaskLeave, hp, KTask.Ended, KTask.Resumable]

theorem EndsEach.ended {st : BlkState} {f : Kernel → List Nat → Kernel} (hf : EndsEach st f) {l : List Nat}
    (hl : l.Nodup) (hu : u ∈ l) (hp : (k.tasks u).IsPend) : ((f k l).tasks u).Ended st := by
  induction l generalizing k with
  | nil => exact absurd hu List.not_mem_nil
  | cons v l ih =>
    rw [List.nodup_cons] at hl
    rw [hf.cons]
    by_cases hv : u = v
    · -- `u` is woken here, and the rest of the loop passes it by
      subst hv
      exact (ended_pendTaskEnd_self hp st).of_waitRec (hf.waitRec hl.1)
    · have hkeep := waitRec_pendTaskEnd_ne hv st (k := k)
      exact ih hl.2 ((List.mem_cons.mp hu).resolve_left hv) ((KTask.isPend_iff_of_waitRec hkeep).mpr hp)

theorem ended_tickExpire_self (hp : (k.tasks u).IsPend) : ((k.tickExpire u).tasks u).Ended .timeout := by
  rcases hp with hp | hp <;> simp [tickExpire, hp, KTask.Ended, KTask.Resumable]

theorem tickListUpdate_go_pend {l : List Nat} (hl : l.Nodup) (hp : (k.tasks u).IsPend) :
    ((tickListUpdate.go k l).tasks u).waitRec = (k.tasks u).waitRec ∨
      ((tickListUpdate.go k l).tasks u).Ended .timeout := by
  induction l generalizing k with
  | nil => exact .inl rfl
  | cons v l ih =>
    rw [List.nodup_cons] at hl
    unfold tickListUpdate.go
    split
    · by_cases hv : u = v
      · -- its time is up: woken with `BLK_TIMEOUT`, and passed by afterwards
        subst hv
        exact .inr ((ended_tickExpire_self hp).of_waitRec (waitRec_tickListUpdate_go hl.1))
      · have hkeep := waitRec_tickExpire_ne hv (k := k)
        exact (ih hl.2 ((KTask.isPend_iff_of_waitRec hkeep).mpr hp)).imp_left (·.trans hkeep)
    · exact .inl rfl

/-- A tick leaves a waiting task as it is, or ends its wait with `BLK_TIMEOUT`. -/
theorem tick_pend (hw : k.WaitInv) (hp : (k.tasks u).IsPend) :
    ((k.krhinoIntrptEnter.krhinoTickProc.krhinoIntrptExit).tasks u).waitRec = (k.tasks u).waitRec ∨
      ((k.krhinoIntrptEnter.krhinoTickProc.krhinoIntrptExit).tasks u).Ended .timeout := by
  have hgo : ((k.krhinoIntrptEnter.tickListUpdate 1).tasks u).waitRec = (k.tasks u).waitRec ∨
      ((k.krhinoIntrptEnter.tickListUpdate 1).tasks u).Ended .timeout :=
    tickListUpdate_go_pend hw.tick_nodup hp
  exact hgo.imp waitRec_tick_eq.trans fun he => he.of_waitRec waitRec_tick_eq

end Ends

/-! ### The task a call names -/

section Target

theorem waitsAlike_krhinoTaskSuspend_self : (k.tasks u).WaitsAlike ((k.krhinoTaskSuspend u).1.tasks u) := by
  unfold krhinoTaskSuspend taskSuspend
  split
  · exact .refl _
  split
  · exact .refl _
  cases hs : (k.tasks u).taskState with
  | rdy | sleep | pend => simp [hs, KTask.WaitsAlike, KTask.IsPend, KTask.Resumable]
  | suspended | sleepSuspended | pendSuspended =>
    by_cases hc : (k.tasks u).suspendCount = suspendNestedMax
    · simp only [hc, if_true]
      split <;> exact .refl _
    · simp [hc, hs, KTask.WaitsAlike, KTask.IsPend, KTask.Resumable]
  | seed | deleted => simp only []; split <;> exact .refl _

theorem waitsAlike_krhinoTaskResume_self : (k.tasks u).WaitsAlike ((k.krhinoTaskResume u).1.tasks u) := by
  unfold krhinoTaskResume
  cases hs : (k.tasks u).taskState with
  | rdy | sleep | pend | seed | deleted => exact .refl _
  | suspended | sleepSuspended | pendSuspended =>
    simp only []
    split <;> simp [hs, KTask.WaitsAlike, KTask.IsPend, KTask.Resumable]

/-- `krhino_task_wait_abort` ends a wait with `BLK_ABORT` and readies a suspended task
with the `blk_state` it had. -/
theorem krhinoTaskWaitAbort_self (hx : ¬(k.tasks u).IsSleep) :
    (k.tasks u).WaitsAlike ((k.krhinoTaskWaitAbort u).1.tasks u) ∨
      ((k.tasks u).IsPend ∧ ((k.krhinoTaskWaitAbort u).1.tasks u).Ended .abort) := by
  unfold krhinoTaskWaitAbort
  split
  · exact .inl (.refl _)
  cases hs : (k.tasks u).taskState with
  | seed | deleted => exact .inl (.refl _)
  | rdy => exact .inl (by simp [KTask.WaitsAlike])
  | suspended => exact .inl (by simp [hs, KTask.WaitsAlike, KTask.IsPend, KTask.Resumable])
  | sleep | sleepSuspended => exact absurd (by simp [KTask.IsSleep, hs]) hx
  | pend | pendSuspended =>
    exact .inr ⟨by simp [KTask.IsPend, hs], by simp [KTask.Ended, KTask.Resumable]⟩

theorem krhinoTaskDel_self (hw : k.WaitInv) (hm : ∀ m, ¬(k.tasks u).WaitsOn (.mutex m)) :
    ((k.krhinoTaskDel u).1.tasks u).taskState = .deleted ∨
      (k.tasks u).WaitsAlike ((k.krhinoTaskDel u).1.tasks u) := by
  unfold krhinoTaskDel
  split_ifs
  · exact .inr (.refl _)
  · exact .inr (.refl _)
  · exact .inr (.refl _)
  · exact .inr (.refl _)
  have h₁ := waitRec_taskMutexFree hw hm u
  dsimp only
  generalize k.taskMutexFree u = k₁ at h₁ ⊢
  unfold taskDelSwitch
  cases hs : (k₁.tasks u).taskState with
  | seed | deleted => exact .inr (.of_waitRec h₁.symm)
  | rdy | suspended | sleep | sleepSuspended | pend | pendSuspended => exact .inl (by simp)

/-- What a call does to the task it names, when that task waits on no mutex and
waits or is ready or suspended: deletes it, leaves it waiting alike, or ends its
wait with `BLK_ABORT`. -/
theorem target_call (hw : k.WaitInv) {c : KCall} (hc : k.callOk c = true) (ht : c.target = some u)
    (hx : (k.tasks u).IsPend ∨ (k.tasks u).Resumable) (hm : ∀ m, ¬(k.tasks u).WaitsOn (.mutex m)) :
    ((k.call c).1.tasks u).taskState = .deleted ∨ (k.tasks u).WaitsAlike ((k.call c).1.tasks u) ∨
      ((k.tasks u).IsPend ∧ ((k.call c).1.tasks u).Ended .abort) := by
  have hs : ¬(k.tasks u).IsSleep := by
    rcases hx with (h | h) | (h | h) <;> simp [KTask.IsSleep, h]
  cases c <;> simp only [KCall.target, reduceCtorEq, Option.some.injEq] at ht <;> subst ht
  case taskCreate t prio ticks autorun =>
    -- a control block in use is not created again
    have hd : (k.tasks t).taskState = .seed ∨ (k.tasks t).taskState = .deleted := by
      simpa [callOk] using hc
    rcases hx with (h | h) | (h | h) <;> rcases hd with hd | hd <;> simp [h] at hd
  case taskSuspend => exact .inr (.inl waitsAlike_krhinoTaskSuspend_self)
  case taskResume => exact .inr (.inl waitsAlike_krhinoTaskResume_self)
  case taskWaitAbort => exact .inr (krhinoTaskWaitAbort_self hs)
  case taskDel => exact (krhinoTaskDel_self hw hm).imp_right .inl

end Target


/-! ### Waiters of a semaphore, and tasks that have not run yet -/

section Fates

theorem semHandedTo_mem {c : KCall} {s : Nat} (hg : c.semHandedTo k s = some u) :
    u ∈ (k.sems s).blkObj.blkList := by
  cases c <;> simp only [KCall.semHandedTo, reduceCtorEq] at hg
  split_ifs at hg
  exact List.mem_of_head? hg

/-- The first waiter of a semaphore that `krhino_sem_give` finds ends its wait with
`BLK_FINISH`. -/
theorem ended_of_semHandedTo (hw : k.WaitInv) {c : KCall} {s : Nat} (hg : c.semHandedTo k s = some u) :
    ((k.call c).1.tasks u).Ended .finish := by
  have hp : (k.tasks u).IsPend := (hw.waitsOn_of_mem (r := .sem s) (semHandedTo_mem hg)).1
  cases c <;> simp only [KCall.semHandedTo, reduceCtorEq] at hg
  rename_i s'
  split_ifs at hg with hs
  obtain ⟨rfl, hty⟩ := hs
  rw [show (k.call (.semGive s')).1 = (k.semGive s' false).1 from rfl]
  unfold semGive
  dsimp only
  rw [if_neg (not_not.mpr hty)]
  obtain ⟨ws, hl⟩ := List.head?_eq_some_iff.mp hg
  split
  · rename_i hl'
    exact absurd (hl'.symm.trans hl) (List.cons_ne_nil _ _).symm
  · rename_i w ws' hl'
    obtain ⟨rfl, -⟩ := List.cons.inj (hl'.symm.trans hl)
    simp only [coreSched_tasks, Bool.false_eq_true, if_false]
    exact ended_pendTaskEnd_self hp .finish

/-- The calls that wake the waiters of semaphore `s`: its deletion ends `u`'s wait
with `BLK_DEL`, a give to all with `BLK_FINISH`, and a give the first waiter's only. -/
theorem semWaiter_wake (hw : k.WaitInv) {c : KCall} {s : Nat} (hu : (k.tasks u).WaitsOn (.sem s))
    (hr : c.wakeObj = some (.sem s)) :
    ((k.call c).1.tasks u).WaitsOn (.sem s) ∨ ((k.call c).1.tasks u).taskState = .deleted ∨
      ∃ st, ((k.call c).1.tasks u).Ended st ∧ (st = .finish → c.GivesTo k s u) := by
  have hmem : u ∈ (k.sems s).blkObj.blkList := hw.mem_sem_iff.mpr hu
  have hnd : (k.sems s).blkObj.blkList.Nodup := hw.nodup (.sem s)
  cases c <;> simp only [KCall.wakeObj, reduceCtorEq, Option.some.injEq, ObjRef.sem.injEq] at hr <;> subst hr
  case semDel s =>
    rw [show (k.call (.semDel s)).1 = (k.krhinoSemDel s).1 from rfl]
    unfold krhinoSemDel
    split_ifs
    · exact .inl hu
    · exact .inl hu
    simp only [coreSched_tasks, setSem_sems, if_true]
    exact .inr (.inr ⟨.del, endsEach_pendTaskRmAll.ended hnd hmem hu.1, fun h => absurd h (by decide)⟩)
  case semGive s =>
    rw [show (k.call (.semGive s)).1 = (k.semGive s false).1 from rfl]
    unfold semGive
    dsimp only
    split
    · exact .inl hu
    rename_i hty
    split
    · rename_i hl
      exact absurd (hl ▸ hmem) List.not_mem_nil
    rename_i w ws hl
    simp only [coreSched_tasks, Bool.false_eq_true, if_false]
    by_cases hwu : u = w
    · -- the unit goes to `u`
      subst hwu
      exact .inr (.inr ⟨.finish, ended_pendTaskEnd_self hu.1 .finish,
        fun _ => .inl (by simp [KCall.semHandedTo, not_not.mp hty, hl])⟩)
    · exact .inl ((KTask.waitsOn_iff_of_waitRec (waitRec_pendTaskEnd_ne hwu .finish)).mpr hu)
  case semGiveAll s =>
    rw [show (k.call (.semGiveAll s)).1 = (k.semGive s true).1 from rfl]
    unfold semGive
    dsimp only
    split
    · exact .inl hu
    rename_i hty
    split
    · rename_i hl
      exact absurd (hl ▸ hmem) List.not_mem_nil
    rename_i w ws hl
    simp only [coreSched_tasks, if_true]
    rw [hl] at hmem hnd
    exact .inr (.inr ⟨.finish, endsEach_pendTaskWakeupAll.ended hnd hmem hu.1, fun _ => .inr ⟨rfl, not_not.mp hty⟩⟩)

/-- A task that waits on semaphore `s` still waits on it after any admissible call,
is deleted, or has ended its wait; it ends it with `BLK_FINISH` only when the call
hands it a unit of `s`. -/
theorem waitsOn_sem_call (h : k.Inv) (hw : k.WaitInv) {c : KCall} (hc : k.callOk c = true) {s : Nat}
    (hu : (k.tasks u).WaitsOn (.sem s)) :
    ((k.call c).1.tasks u).WaitsOn (.sem s) ∨ ((k.call c).1.tasks u).taskState = .deleted ∨
      ∃ st, ((k.call c).1.tasks u).Ended st ∧ (st = .finish → c.GivesTo k s u) := by
  have ha : u ≠ k.activeTask := by
    rintro rfl
    exact not_isPend_of_isRdy h.active_rdy hu.1
  -- `u` waits on the semaphore, so on no other object
  have hother : ∀ r, (k.tasks u).WaitsOn r → r = .sem s := fun r hr => Option.some.inj (hr.2.symm.trans hu.2)
  have hm : ∀ m, ¬(k.tasks u).WaitsOn (.mutex m) := fun m hm => by cases hother _ hm
  by_cases ht : c.target = some u
  · rcases target_call hw hc ht (.inl hu.1) hm with hd | hs | ⟨-, he⟩
    · exact .inr (.inl hd)
    · exact .inl (hs.waitsOn hu)
    · exact .inr (.inr ⟨.abort, he, fun h => absurd h (by decide)⟩)
  by_cases hr : c.wakeObj = some (.sem s)
  · exact semWaiter_wake hw hu hr
  by_cases htick : c = .tick
  · subst htick
    rcases tick_pend hw hu.1 with hk | he
    · exact .inl ((KTask.waitsOn_iff_of_waitRec hk).mpr hu)
    · exact .inr (.inr ⟨.timeout, he, fun h => absurd h (by decide)⟩)
  -- any other call leaves `u` waiting
  have hkeep := waitRec_call hw ha ht (fun r hcr hwr => hr (hother r hwr ▸ hcr)) (fun h => absurd h htick)
    fun _ => hm
  exact .inl ((KTask.waitsOn_iff_of_waitRec hkeep).mpr hu)

/-- A ready or suspended task that does not run keeps its `blk_state` over any
admissible call, or is deleted: until it runs, nothing changes what its blocked
call will return. -/
theorem resumable_call (hw : k.WaitInv) {c : KCall} (hc : k.callOk c = true) (hu : (k.tasks u).Resumable)
    (ha : u ≠ k.activeTask) :
    ((k.call c).1.tasks u).taskState = .deleted ∨ ((k.call c).1.tasks u).Ended (k.tasks u).blkState := by
  have hnw : ∀ r, ¬(k.tasks u).WaitsOn r := fun r hr => hu.not_isPend hr.1
  by_cases ht : c.target = some u
  · rcases target_call hw hc ht (.inr hu) (fun _ => hnw _) with hd | hs | ⟨hp, -⟩
    · exact .inl hd
    · exact .inr ⟨hs.2.2.2.mpr hu, hs.2.1⟩
    · exact absurd hp hu.not_isPend
  -- neither waiting nor sleeping, `u` is on no list a call walks
  have hh : (k.tasks u).tickHead = false := by
    cases hth : (k.tasks u).tickHead
    · rfl
    · rcases hw.tick_state u not_false hth with hs | hp
      · exact absurd hs hu.not_isSleep
      · exact absurd hp hu.not_isPend
  have hkeep := waitRec_call hw ha ht (fun r _ => hnw r) (fun _ => hh) fun _ _ => hnw _
  exact .inr (KTask.Ended.of_waitRec ⟨hu, rfl⟩ hkeep)

end Fates

end Kernel

end Rhino
