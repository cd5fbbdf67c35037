import AliosThings.Rhino.WaitRun

/-!
# Frames of kernel steps

Most kernel primitives touch tasks and blocked lists only: they rewrite a control
block without giving it a new wait, move a task on or off a list, or choose the
task to run. A relation `R` between states that every such step satisfies, and
that composes, is a frame: `KFrame R B` lists those rules, with `B k t r` what a
task `t` needs in order to start waiting on `r`. From the rules alone each
primitive, and each service that stores nothing, is a step of `R`; a particular
frame then adds its own lemmas for the object setters it cares about.
-/

namespace Rhino

namespace Kernel

/-- The rules of a frame: reflexive, transitive, blind to the scheduler's own
fields, and kept by rewriting a task without a new wait, by ending a task's wait,
by replacing a blocked list, and by a block that `B` allows. -/
structure KFrame (R : Kernel → Kernel → Prop) (B : Kernel → Nat → ObjRef → Prop) : Prop where
  refl : ∀ k, R k k
  trans : ∀ {k k' k''}, R k k' → R k' k'' → R k k''
  objects : ∀ {k k' : Kernel}, k'.tasks = k.tasks → k'.sems = k.sems → k'.queues = k.queues →
    k'.events = k.events → k'.bufQueues = k.bufQueues → R k k'
  setTask : ∀ {k : Kernel} {t : Nat} {f : KTask → KTask},
    (∀ r, (f (k.tasks t)).IsPend ∧ (f (k.tasks t)).blkObj = some r →
      (k.tasks t).IsPend ∧ (k.tasks t).blkObj = some r) →
    (f (k.tasks t)).pendFlags = (k.tasks t).pendFlags →
    (f (k.tasks t)).pendOption = (k.tasks t).pendOption → R k (k.setTask t f)
  quiet : ∀ {k : Kernel} {t : Nat} {f : KTask → KTask}, ¬(f (k.tasks t)).IsPend → R k (k.setTask t f)
  setBlkList : ∀ (k : Kernel) (r : ObjRef) (l : List Nat), R k (k.setBlkList r l)
  block : ∀ {k : Kernel} {t : Nat} {r : ObjRef} (timeout : Nat), ¬(k.tasks t).IsPend → B k t r →
    R k (k.pendToBlkObj r t timeout)

variable {R : Kernel → Kernel → Prop} {B : Kernel → Nat → ObjRef → Prop} {k : Kernel}

namespace KFrame

/-! ### Scheduler fields and lists -/

theorem setMutex (hR : KFrame R B) (m : Nat) (f : KMutex → KMutex) : R k (k.setMutex m f) :=
  hR.objects rfl rfl rfl rfl rfl

theorem readyListAdd (hR : KFrame R B) (t : Nat) : R k (k.readyListAdd t) :=
  hR.objects rfl rfl rfl rfl rfl

theorem readyListAddTail (hR : KFrame R B) (t : Nat) : R k (k.readyListAddTail t) :=
  hR.objects rfl rfl rfl rfl rfl

theorem readyListAddHead (hR : KFrame R B) (t : Nat) : R k (k.readyListAddHead t) :=
  hR.objects rfl rfl rfl rfl rfl

theorem readyListRm (hR : KFrame R B) (t : Nat) : R k (k.readyListRm t) :=
  hR.objects rfl rfl rfl rfl rfl

theorem readyListHeadToTail (hR : KFrame R B) (t : Nat) : R k (k.readyListHeadToTail t) :=
  hR.objects rfl rfl rfl rfl rfl

theorem coreSched (hR : KFrame R B) : R k k.coreSched := by
  obtain ⟨a, p, h⟩ := k.coreSched_eq
  rw [h]
  exact hR.objects rfl rfl rfl rfl rfl

/-- A task whose wait is forgotten: its `blk_obj` is cleared. -/
theorem setTask_detach (hR : KFrame R B) {t : Nat} {f : KTask → KTask}
    (hb : (f (k.tasks t)).blkObj = none) (hfl : (f (k.tasks t)).pendFlags = (k.tasks t).pendFlags)
    (hop : (f (k.tasks t)).pendOption = (k.tasks t).pendOption) : R k (k.setTask t f) :=
  hR.setTask (fun _ hw => absurd (hb ▸ hw.2) (by simp)) hfl hop

theorem tickListRm (hR : KFrame R B) (t : Nat) : R k (k.tickListRm t) := by
  unfold Kernel.tickListRm
  split
  · dsimp only
    refine hR.trans ?_ (hR.setTask (fun _ hw => hw) rfl rfl)
    exact hR.objects rfl rfl rfl rfl rfl
  · exact hR.refl k

theorem tickListInsert (hR : KFrame R B) (t time : Nat) : R k (k.tickListInsert t time) := by
  unfold Kernel.tickListInsert
  split
  · dsimp only
    have h₁ : R k (k.setTask t fun task =>
        { task with tickMatch := tickWrap (k.tickCount + time), tickRemain := time }) :=
      hR.setTask (fun _ hw => hw) rfl rfl
    refine hR.trans (hR.trans h₁ ?_) (hR.setTask (fun _ hw => hw) rfl rfl)
    exact hR.objects rfl rfl rfl rfl rfl
  · exact hR.refl k

theorem blkListRm (hR : KFrame R B) (t : Nat) : R k (k.blkListRm t) := by
  unfold Kernel.blkListRm
  split
  · exact hR.setBlkList _ _ _
  · exact hR.refl k

theorem pendListReorder (hR : KFrame R B) (t : Nat) : R k (k.pendListReorder t) := by
  unfold Kernel.pendListReorder
  split
  · split
    · exact hR.setBlkList _ _ _
    · exact hR.refl k
  · exact hR.refl k

/-! ### Ending a wait -/

/-- A waiter leaves its list ready or suspended, so it waits no more. -/
theorem pendTaskLeave (hR : KFrame R B) (t : Nat) : R k (k.pendTaskLeave t) := by
  unfold Kernel.pendTaskLeave
  split
  · exact hR.trans (hR.trans (hR.blkListRm t) (hR.readyListAdd t)) (hR.quiet (by simp [KTask.IsPend]))
  · exact hR.trans (hR.blkListRm t) (hR.quiet (by simp [KTask.IsPend]))
  · exact hR.refl k

theorem pendTaskEnd (hR : KFrame R B) (t : Nat) (st : BlkState) : R k (k.pendTaskEnd t st) :=
  hR.trans (hR.trans (hR.pendTaskLeave t) (hR.tickListRm t)) (hR.setTask_detach rfl rfl rfl)

theorem pendTaskRmAll (hR : KFrame R B) (l : List Nat) : R k (k.pendTaskRmAll l) := by
  induction l generalizing k with
  | nil => exact hR.refl k
  | cons t l ih => exact hR.trans (hR.pendTaskEnd t .del) ih

theorem pendTaskWakeupAll (hR : KFrame R B) (l : List Nat) : R k (k.pendTaskWakeupAll l) := by
  induction l generalizing k with
  | nil => exact hR.refl k
  | cons t l ih => exact hR.trans (hR.pendTaskEnd t .finish) ih

theorem taskMsgRecv (hR : KFrame R B) (t p : Nat) : R k (k.taskMsgRecv t p) :=
  hR.trans (hR.setTask (fun _ hw => hw) rfl rfl) (hR.pendTaskEnd t .finish)

theorem taskMsgRecvAll (hR : KFrame R B) (p : Nat) (l : List Nat) : R k (k.taskMsgRecvAll p l) := by
  induction l generalizing k with
  | nil => exact hR.refl k
  | cons t l ih => exact hR.trans (hR.taskMsgRecv t p) ih

/-! ### Priorities, mutexes and the tick -/

theorem taskPriChangeLoop (hR : KFrame R B) (fuel : Nat) :
    ∀ (k : Kernel) (t newPri : Nat), R k (taskPriChangeLoop fuel k t newPri).1 := by
  induction fuel with
  | zero => intro k _ _; exact hR.refl k
  | succ fuel ih =>
    intro k t newPri
    have hprio : ∀ k : Kernel, R k (k.setTask t fun task => { task with prio := newPri }) :=
      fun _ => hR.setTask (fun _ hw => hw) rfl rfl
    unfold Rhino.Kernel.taskPriChangeLoop
    split
    · exact hR.refl k
    split
    · have h₁ : R k ((k.readyListRm t).setTask t fun task => { task with prio := newPri }) :=
        hR.trans (hR.readyListRm t) (hprio _)
      dsimp only
      split
      · exact hR.trans h₁ (hR.readyListAddHead t)
      · exact hR.trans h₁ (hR.readyListAddTail t)
    all_goals dsimp only
    · exact hprio k
    · exact hprio k
    · exact hprio k
    -- a waiter: reordered, then perhaps the owner
    all_goals try split
    all_goals first
      | exact hR.refl k
      | exact hR.trans (hR.trans (hprio k) (hR.pendListReorder t)) (ih _ _ _)
      | exact hR.trans (hprio k) (hR.pendListReorder t)

theorem mutexRelease (hR : KFrame R B) (t : Nat) (rel : Option Nat) : R k (k.mutexRelease t rel) := by
  unfold Kernel.mutexRelease
  rcases k.mutexPriLook t rel with ⟨newPri, chain⟩
  have h₁ : R k (k.setTask t fun task => { task with mutexList := chain }) :=
    hR.setTask (fun _ hw => hw) rfl rfl
  dsimp only
  split
  · exact hR.trans h₁ (hR.taskPriChangeLoop _ _ _ _)
  · exact h₁

theorem mutexTaskPriReset (hR : KFrame R B) (t : Nat) : R k (k.mutexTaskPriReset t) := by
  unfold Kernel.mutexTaskPriReset
  split
  · split
    · split
      · split
        · exact hR.mutexRelease _ _
        · exact hR.refl k
      · exact hR.refl k
    · exact hR.refl k
  · exact hR.refl k

theorem taskMutexFree (hR : KFrame R B) (t : Nat) : R k (k.taskMutexFree t) := by
  unfold Kernel.taskMutexFree
  generalize (k.tasks t).mutexList = ms
  induction ms generalizing k with
  | nil => exact hR.refl k
  | cons m ms ih =>
    unfold Kernel.taskMutexFree.go
    split
    · rename_i w _ _
      exact hR.trans (hR.trans (hR.trans (hR.pendTaskEnd w .finish) (hR.setMutex _ _))
        (hR.setTask (fun _ hw => hw) rfl rfl)) ih
    · exact hR.trans (hR.setMutex _ _) ih

theorem tickExpire (hR : KFrame R B) (t : Nat) : R k (k.tickExpire t) := by
  unfold Kernel.tickExpire
  split
  · exact hR.trans (hR.trans (hR.quiet (by simp [KTask.IsPend])) (hR.tickListRm t)) (hR.readyListAdd t)
  · have h₁ : R k ((((k.tickListRm t).blkListRm t).readyListAdd t).setTask t fun task =>
        { task with blkState := .timeout, taskState := .rdy }) :=
      hR.trans (hR.trans (hR.trans (hR.tickListRm t) (hR.blkListRm t)) (hR.readyListAdd t))
        (hR.quiet (by simp [KTask.IsPend]))
    exact hR.trans (hR.trans h₁ (hR.mutexTaskPriReset t)) (hR.setTask_detach rfl rfl rfl)
  · have h₁ : R k (((k.tickListRm t).blkListRm t).setTask t fun task =>
        { task with blkState := .timeout, taskState := .suspended }) :=
      hR.trans (hR.trans (hR.tickListRm t) (hR.blkListRm t)) (hR.quiet (by simp [KTask.IsPend]))
    exact hR.trans (hR.trans h₁ (hR.mutexTaskPriReset t)) (hR.setTask_detach rfl rfl rfl)
  · exact hR.trans (hR.quiet (by simp [KTask.IsPend])) (hR.tickListRm t)
  · exact hR.refl k

theorem tickListUpdate_go (hR : KFrame R B) (l : List Nat) : R k (tickListUpdate.go k l) := by
  induction l generalizing k with
  | nil => exact hR.refl k
  | cons t l ih =>
    unfold Kernel.tickListUpdate.go
    split
    · exact hR.trans (hR.tickExpire t) ih
    · exact hR.refl k

theorem tickListUpdate (hR : KFrame R B) (ticks : Nat) : R k (k.tickListUpdate ticks) := by
  unfold Kernel.tickListUpdate
  dsimp only
  refine hR.trans ?_ (hR.tickListUpdate_go _)
  exact hR.objects rfl rfl rfl rfl rfl

theorem timeSliceUpdate (hR : KFrame R B) : R k k.timeSliceUpdate := by
  unfold Kernel.timeSliceUpdate
  dsimp only
  split
  · exact hR.refl k
  · rename_i t rest _
    split
    · exact hR.refl k
    split
    · exact hR.refl k
    generalize (if 0 < (k.tasks t).timeSlice then (k.tasks t).timeSlice - 1
      else (k.tasks t).timeSlice) = slice
    have h₁ : R k (k.setTask t fun task => { task with timeSlice := slice }) :=
      hR.setTask (fun _ hw => hw) rfl rfl
    split
    · exact h₁
    · exact hR.trans (hR.trans h₁ (hR.readyListHeadToTail t)) (hR.setTask (fun _ hw => hw) rfl rfl)

/-- A blocking call's caller is ready, so it waits on nothing before it blocks. -/
theorem pend (hR : KFrame R B) (h : k.Inv) {r : ObjRef} (hr : B k k.activeTask r) (ticks : Nat) :
    R k (k.pendToBlkObj r k.activeTask ticks).coreSched :=
  hR.trans (hR.block ticks (not_isPend_of_isRdy h.active_rdy) hr) hR.coreSched

/-! ### Task services -/

theorem krhinoTaskCreate (hR : KFrame R B) (t prio ticks : Nat) (autorun : Bool) :
    R k (k.krhinoTaskCreate t prio ticks autorun).1 := by
  unfold Kernel.krhinoTaskCreate Kernel.taskCreate
  by_cases hp : prio ≥ rhinoConfigPriMax
  · rw [if_pos hp]
    exact hR.refl k
  rw [if_neg hp]
  by_cases hi : 0 < k.intrptNested
  · rw [if_pos hi]
    exact hR.refl k
  rw [if_neg hi]
  by_cases he : prio = rhinoIdlePri ∧ k.idleTaskSpawned
  · rw [if_pos he]
    exact hR.refl k
  rw [if_neg he]
  dsimp only
  have h₀ : R k (if prio = rhinoIdlePri then { k with idleTaskSpawned := true } else k) := by
    split
    · exact hR.objects rfl rfl rfl rfl rfl
    · exact hR.refl k
  generalize (if prio = rhinoIdlePri then { k with idleTaskSpawned := true } else k) = k₁ at h₀ ⊢
  -- the new control block is ready or suspended: it waits on nothing
  have hnew : ∀ task : KTask, ¬task.IsPend → R k (k₁.setTask t fun _ => task) :=
    fun _ hq => hR.trans h₀ (hR.quiet hq)
  cases autorun with
  | false => exact hnew _ (by simp [KTask.IsPend])
  | true =>
    exact hR.trans (hR.trans (hnew _ (by simp [KTask.IsPend])) (hR.readyListAddTail t)) hR.coreSched

theorem krhinoTaskSleep (hR : KFrame R B) (ticks : Nat) : R k (k.krhinoTaskSleep ticks).1 := by
  unfold Kernel.krhinoTaskSleep
  split_ifs
  · exact hR.refl k
  · exact hR.refl k
  · exact hR.refl k
  exact hR.trans (hR.trans (hR.trans (hR.quiet (by simp [KTask.IsPend])) (hR.tickListInsert _ _))
    (hR.readyListRm _)) hR.coreSched

theorem krhinoTaskYield (hR : KFrame R B) : R k k.krhinoTaskYield.1 :=
  hR.trans (hR.readyListHeadToTail _) hR.coreSched

theorem krhinoTaskSuspend (hR : KFrame R B) (t : Nat) : R k (k.krhinoTaskSuspend t).1 := by
  unfold Kernel.krhinoTaskSuspend
  split
  · exact hR.refl k
  unfold Kernel.taskSuspend
  split
  · exact hR.refl k
  cases hs : (k.tasks t).taskState with
  | rdy =>
    simp only []
    exact hR.trans (hR.trans (hR.quiet (by simp [KTask.IsPend])) (hR.readyListRm t)) hR.coreSched
  | sleep =>
    simp only []
    exact hR.trans (hR.quiet (by simp [KTask.IsPend])) hR.coreSched
  | pend =>
    -- still waiting, on the same object, for the same flags
    simp only []
    exact hR.trans (hR.setTask (fun _ hw => ⟨Or.inl hs, hw.2⟩) rfl rfl) hR.coreSched
  | suspended | sleepSuspended | pendSuspended =>
    by_cases hc : (k.tasks t).suspendCount = suspendNestedMax
    · simp only [hc, if_true]
      exact hR.refl k
    · simp only [hc, if_false]
      exact hR.trans (hR.setTask (fun _ hw => hw) rfl rfl) hR.coreSched
  | seed | deleted => exact hR.refl k

theorem krhinoTaskResume (hR : KFrame R B) (t : Nat) : R k (k.krhinoTaskResume t).1 := by
  unfold Kernel.krhinoTaskResume
  dsimp only
  generalize ((k.tasks t).suspendCount + suspendNestedMax) % (suspendNestedMax + 1) = count
  have hdec : R k (k.setTask t fun task => { task with suspendCount := count }) :=
    hR.setTask (fun _ hw => hw) rfl rfl
  cases hs : (k.tasks t).taskState with
  | rdy | sleep | pend | seed | deleted => exact hR.refl k
  | suspended =>
    simp only []
    split
    · exact hR.trans (hR.trans (hR.trans hdec (hR.quiet (by simp [KTask.IsPend]))) (hR.readyListAdd t))
        hR.coreSched
    · exact hR.trans hdec hR.coreSched
  | sleepSuspended =>
    simp only []
    split
    · exact hR.trans (hR.trans hdec (hR.quiet (by simp [KTask.IsPend]))) hR.coreSched
    · exact hR.trans hdec hR.coreSched
  | pendSuspended =>
    -- back to waiting, on the same object
    simp only []
    split
    · exact hR.trans (hR.trans hdec (hR.setTask
        (fun _ hw => ⟨Or.inr (by simpa using hs), by simpa using hw.2⟩) rfl rfl)) hR.coreSched
    · exact hR.trans hdec hR.coreSched

theorem krhinoTaskPriChange (hR : KFrame R B) (t pri : Nat) : R k (k.krhinoTaskPriChange t pri).1 := by
  unfold Kernel.krhinoTaskPriChange
  split_ifs
  · exact hR.refl k
  · exact hR.refl k
  · exact hR.refl k
  · exact hR.refl k
  have h₁ : R k ((k.setTask t fun task => { task with bPrio := pri }).taskPriChange t
      (k.mutexPriLimit t pri)).1 :=
    hR.trans (hR.setTask (fun _ hw => hw) rfl rfl) (hR.taskPriChangeLoop _ _ _ _)
  dsimp only
  split
  · exact h₁
  · exact hR.trans h₁ hR.coreSched

theorem krhinoTaskWaitAbort (hR : KFrame R B) (t : Nat) : R k (k.krhinoTaskWaitAbort t).1 := by
  unfold Kernel.krhinoTaskWaitAbort
  split
  · exact hR.refl k
  cases hs : (k.tasks t).taskState with
  | seed | deleted => exact hR.refl k
  | rdy => exact hR.coreSched
  | suspended =>
    simp only []
    exact hR.trans (hR.trans (hR.quiet (by simp [KTask.IsPend])) (hR.readyListAdd t)) hR.coreSched
  | sleep | sleepSuspended =>
    simp only []
    exact hR.trans (hR.trans (hR.trans (hR.tickListRm t) (hR.readyListAdd t))
      (hR.quiet (by simp [KTask.IsPend]))) hR.coreSched
  | pend | pendSuspended =>
    simp only []
    have h₁ : R k ((((k.tickListRm t).blkListRm t).readyListAdd t).setTask t fun task =>
        { task with taskState := .rdy, blkState := .abort }) :=
      hR.trans (hR.trans (hR.trans (hR.tickListRm t) (hR.blkListRm t)) (hR.readyListAdd t))
        (hR.quiet (by simp [KTask.IsPend]))
    exact hR.trans (hR.trans (hR.trans h₁ (hR.mutexTaskPriReset t)) (hR.setTask_detach rfl rfl rfl))
      hR.coreSched

theorem krhinoTaskDel (hR : KFrame R B) (t : Nat) : R k (k.krhinoTaskDel t).1 := by
  unfold Kernel.krhinoTaskDel
  split_ifs
  · exact hR.refl k
  · exact hR.refl k
  · exact hR.refl k
  · exact hR.refl k
  have h₁ := hR.taskMutexFree (k := k) t
  dsimp only
  generalize k.taskMutexFree t = k₁ at h₁ ⊢
  -- whatever the state, the deleted task waits on nothing
  have hdel : ∀ k₂ : Kernel, R k₂ (k₂.setTask t fun task => { task with taskState := .deleted }) :=
    fun _ => hR.quiet (by simp [KTask.IsPend])
  unfold Kernel.taskDelSwitch
  cases (k₁.tasks t).taskState with
  | seed | deleted => exact h₁
  | rdy => exact hR.trans (hR.trans (hR.trans h₁ (hR.readyListRm t)) (hdel _)) hR.coreSched
  | suspended => exact hR.trans (hR.trans h₁ (hdel _)) hR.coreSched
  | sleep | sleepSuspended =>
    exact hR.trans (hR.trans (hR.trans h₁ (hR.tickListRm t)) (hdel _)) hR.coreSched
  | pend | pendSuspended =>
    exact hR.trans (hR.trans (hR.trans (hR.trans (hR.trans h₁ (hR.tickListRm t)) (hR.blkListRm t))
      (hdel _)) (hR.mutexTaskPriReset t)) hR.coreSched

theorem krhinoSchedDisable (hR : KFrame R B) : R k k.krhinoSchedDisable.1 := by
  unfold Kernel.krhinoSchedDisable
  split_ifs
  · exact hR.refl k
  · exact hR.refl k
  · exact hR.objects rfl rfl rfl rfl rfl

theorem krhinoSchedEnable (hR : KFrame R B) : R k k.krhinoSchedEnable.1 := by
  unfold Kernel.krhinoSchedEnable
  split_ifs
  · exact hR.refl k
  · exact hR.refl k
  have h₁ : R k { k with schedLock := k.schedLock - 1 } := hR.objects rfl rfl rfl rfl rfl
  dsimp only
  split
  · exact h₁
  · exact hR.trans h₁ hR.coreSched

theorem tick (hR : KFrame R B) : R k k.krhinoIntrptEnter.krhinoTickProc.krhinoIntrptExit := by
  have h₁ : R k k.krhinoIntrptEnter := hR.objects rfl rfl rfl rfl rfl
  have h₂ := hR.trans (hR.trans h₁ (hR.tickListUpdate 1)) hR.timeSliceUpdate
  rw [krhinoIntrptExit_eq]
  refine hR.trans (hR.trans h₂ ?_) hR.coreSched
  exact hR.objects rfl rfl rfl rfl rfl

/-! ### Mutexes -/

theorem krhinoMutexCreate (hR : KFrame R B) (m : Nat) : R k (k.krhinoMutexCreate m) :=
  hR.setMutex _ _

theorem krhinoMutexLock (hR : KFrame R B) (hB : ∀ k t m, B k t (.mutex m)) (h : k.Inv) (m ticks : Nat) :
    R k (k.krhinoMutexLock m ticks).1 := by
  unfold Kernel.krhinoMutexLock
  dsimp only
  split
  · exact hR.refl k
  split
  · exact hR.refl k
  split
  · split
    · exact hR.refl k
    · dsimp only
      exact hR.setMutex _ _
  split
  · dsimp only
    exact hR.trans (hR.setMutex _ _) (hR.setTask (fun _ hw => hw) rfl rfl)
  · rename_i o _
    split
    · exact hR.refl k
    split
    · exact hR.refl k
    -- the owner may take the waiter's priority; the waiter is still ready, and blocks
    have hp := not_isPend_of_isRdy h.active_rdy
    split
    · have hk := statesKept_taskPriChangeLoop (2 * k.blocked.length + 2) k o k.active.prio
      refine hR.trans (hR.taskPriChangeLoop _ _ _ _) (hR.trans (hR.block ticks ?_ (hB _ _ _)) hR.coreSched)
      simpa [KTask.IsPend, taskPriChange, hk.state] using hp
    · exact hR.trans (hR.block ticks hp (hB _ _ _)) hR.coreSched

theorem krhinoMutexUnlock (hR : KFrame R B) (m : Nat) : R k (k.krhinoMutexUnlock m).1 := by
  unfold Kernel.krhinoMutexUnlock
  dsimp only
  split
  · exact hR.refl k
  split
  · exact hR.refl k
  split
  · exact hR.refl k
  have h₁ := hR.setMutex (k := k) m fun mx => { mx with ownerNested :=
      ((k.mutexes m).ownerNested + mutexNestedMax) % (mutexNestedMax + 1) }
  split
  · exact h₁
  have h₂ := hR.trans h₁ (hR.mutexRelease k.activeTask (some m))
  generalize (k.setMutex m fun mx => { mx with ownerNested :=
      ((k.mutexes m).ownerNested + mutexNestedMax) % (mutexNestedMax + 1) }).mutexRelease
      k.activeTask (some m) = k₂ at h₂ ⊢
  split
  · dsimp only
    exact hR.trans h₂ (hR.setMutex _ _)
  · dsimp only
    exact hR.trans (hR.trans (hR.trans (hR.trans h₂ (hR.pendTaskEnd _ .finish)) (hR.setMutex _ _))
      (hR.setTask (fun _ hw => hw) rfl rfl)) hR.coreSched

theorem krhinoMutexDel (hR : KFrame R B) (m : Nat) : R k (k.krhinoMutexDel m).1 := by
  unfold Kernel.krhinoMutexDel
  split_ifs
  · exact hR.refl k
  · exact hR.refl k
  dsimp only
  have h₁ := hR.setMutex (k := k) m fun mx => { mx with blkObj := { mx.blkObj with objType := .none } }
  generalize (k.setMutex m fun mx => { mx with blkObj := { mx.blkObj with objType := .none } }) = k₁ at h₁ ⊢
  split
  · exact hR.trans (hR.trans (hR.trans h₁ (hR.mutexRelease _ _)) (hR.pendTaskRmAll _)) hR.coreSched
  · exact hR.trans (hR.trans h₁ (hR.pendTaskRmAll _)) hR.coreSched

end KFrame

end Kernel

end Rhino
