import AliosThings.Rhino.Prio

/-!
# Task services and the tick (`k_task.c`, `k_sched.c`, `k_tick.c`)

Each service is a function of the kernel state run by the active task. One that
can block its caller returns `KRet.blocked` when it did: the caller's status is
then `pend_state_end_proc` of its control block when it runs again. The
`NULL` checks are left out, as every argument is a value here, and the system is
taken to be running (`g_sys_stat == RHINO_RUNNING`).

The counter widths come from the port's `k_types.h`, which is not in the tree;
the model takes those of the usual one: 8-bit nesting counts.
-/

namespace Rhino

/-- What a service gives its caller. -/
inductive KRet where
  | ret (st : Kstat)
  | blocked
  deriving DecidableEq, Repr

/-- The largest `suspend_nested_t`. -/
def suspendNestedMax : Nat := 255

namespace Kernel

/-- `task_create` of the control block `t`, which must not be in use, with the
`mm_alloc_flag` its caller passes. -/
def taskCreate (k : Kernel) (t prio ticks mmAllocFlag : Nat) (autorun : Bool) : Kernel × Kstat :=
  if prio ≥ rhinoConfigPriMax then (k, .beyondMaxPri)
  else if 0 < k.intrptNested then (k, .notCalledByIntrpt)
  else if prio = rhinoIdlePri ∧ k.idleTaskSpawned then (k, .idleTaskExist)
  else
    let k := if prio = rhinoIdlePri then { k with idleTaskSpawned := true } else k
    let total := if 0 < ticks then ticks else rhinoConfigTimeSliceDefault
    let task : KTask :=
      { KTask.zero with
        timeTotal := total, timeSlice := total, schedPolicy := .rr,
        taskState := if autorun then .rdy else .suspended,
        suspendCount := if autorun then 0 else 1,
        prio := prio, bPrio := prio, mmAllocFlag := mmAllocFlag }
    let k := k.setTask t fun _ => task
    if autorun then ((k.readyListAddTail t).coreSched, .success) else (k, .success)

/-- `krhino_task_create`: `task_create` with `K_OBJ_STATIC_ALLOC`. -/
def krhinoTaskCreate (k : Kernel) (t prio ticks : Nat) (autorun : Bool) : Kernel × Kstat :=
  k.taskCreate t prio ticks kObjStaticAlloc autorun

/-- `krhino_task_sleep`. -/
def krhinoTaskSleep (k : Kernel) (ticks : Nat) : Kernel × KRet :=
  if ticks = 0 then (k, .ret .invParam)
  else if 0 < k.intrptNested then (k, .ret .notCalledByIntrpt)
  else if 0 < k.schedLock then (k, .ret .schedDisable)
  else
    let a := k.activeTask
    let k := k.setTask a fun task => { task with taskState := .sleep }
    let k := k.tickListInsert a ticks
    let k := k.readyListRm a
    (k.coreSched, .blocked)

/-- `krhino_task_yield`. -/
def krhinoTaskYield (k : Kernel) : Kernel × Kstat :=
  ((k.readyListHeadToTail k.activeTask).coreSched, .success)

/-- `task_suspend`. -/
def taskSuspend (k : Kernel) (t : Nat) : Kernel × Kstat :=
  if t = k.activeTask ∧ 0 < k.schedLock then (k, .schedDisable)
  else
    let r : Option Kernel :=
      match (k.tasks t).taskState with
      | .rdy =>
        some ((k.setTask t fun task => { task with suspendCount := 1, taskState := .suspended }).readyListRm t)
      | .sleep => some (k.setTask t fun task => { task with suspendCount := 1, taskState := .sleepSuspended })
      | .pend => some (k.setTask t fun task => { task with suspendCount := 1, taskState := .pendSuspended })
      | .suspended | .sleepSuspended | .pendSuspended =>
        if (k.tasks t).suspendCount = suspendNestedMax then none
        else some (k.setTask t fun task => { task with suspendCount := task.suspendCount + 1 })
      | _ => none
    match r with
    | some k' => (k'.coreSched, .success)
    | none =>
      if (k.tasks t).taskState = .seed ∨ (k.tasks t).taskState = .deleted then (k, .invTaskState)
      else (k, .suspendedCountOvf)

/-- `krhino_task_suspend`: the idle task cannot be suspended. -/
def krhinoTaskSuspend (k : Kernel) (t : Nat) : Kernel × Kstat :=
  if (k.tasks t).prio = rhinoIdlePri then (k, .taskSuspendNotAllowed) else k.taskSuspend t

/-- `task_resume`: the last resume puts the task back in the state it was
suspended from. -/
def krhinoTaskResume (k : Kernel) (t : Nat) : Kernel × Kstat :=
  -- `suspend_count--` on the 8-bit counter
  let count := ((k.tasks t).suspendCount + suspendNestedMax) % (suspendNestedMax + 1)
  let dec := k.setTask t fun task => { task with suspendCount := count }
  let last := count = 0
  match (k.tasks t).taskState with
  | .rdy | .sleep | .pend => (k, .taskNotSuspended)
  | .suspended =>
    let k := if last then (dec.setTask t fun task => { task with taskState := .rdy }).readyListAdd t
             else dec
    (k.coreSched, .success)
  | .sleepSuspended =>
    let k := if last then dec.setTask t fun task => { task with taskState := .sleep } else dec
    (k.coreSched, .success)
  | .pendSuspended =>
    let k := if last then dec.setTask t fun task => { task with taskState := .pend } else dec
    (k.coreSched, .success)
  | _ => (k, .invTaskState)

/-- `krhino_task_pri_change`: the new base priority, limited by the waiters of the
mutexes the task holds. -/
def krhinoTaskPriChange (k : Kernel) (t pri : Nat) : Kernel × Kstat :=
  if (k.tasks t).prio ≥ rhinoIdlePri then (k, .priChgNotAllowed)
  else if pri ≥ rhinoIdlePri then (k, .priChgNotAllowed)
  else if (k.tasks t).taskState = .deleted then (k, .invTaskState)
  else if 0 < k.intrptNested then (k, .notCalledByIntrpt)
  else
    let priLimit := k.mutexPriLimit t pri
    let k := k.setTask t fun task => { task with bPrio := pri }
    let (k, err) := k.taskPriChange t priLimit
    if err ≠ .success then (k, err) else (k.coreSched, .success)

/-- `krhino_task_wait_abort`. -/
def krhinoTaskWaitAbort (k : Kernel) (t : Nat) : Kernel × Kstat :=
  if 0 < k.intrptNested then (k, .notCalledByIntrpt)
  else
    let r : Option Kernel :=
      match (k.tasks t).taskState with
      | .rdy => some k
      | .suspended => some ((k.setTask t fun task => { task with taskState := .rdy }).readyListAdd t)
      | .sleep | .sleepSuspended =>
        some (((k.tickListRm t).readyListAdd t).setTask t fun task =>
          { task with taskState := .rdy, blkState := .abort })
      | .pend | .pendSuspended =>
        let k := ((k.tickListRm t).blkListRm t).readyListAdd t
        let k := k.setTask t fun task => { task with taskState := .rdy, blkState := .abort }
        some ((k.mutexTaskPriReset t).setTask t fun task => { task with blkObj := none })
      | _ => none
    match r with
    | some k => (k.coreSched, .success)
    | none => (k, .invTaskState)

/-- `task_mutex_free`: each mutex the deleted task holds goes to its first waiter,
which is woken; a mutex nobody waits for is left without owner. -/
def taskMutexFree (k : Kernel) (t : Nat) : Kernel :=
  go k (k.tasks t).mutexList
where
  go (k : Kernel) : List Nat → Kernel
    | [] => k
    | m :: ms =>
      match (k.mutexes m).blkObj.blkList with
      | w :: _ =>
        let k := k.pendTaskWakeup w
        let k := k.setMutex m fun mx => { mx with mutexTask := some w }
        let k := k.setTask w fun task => { task with mutexList := m :: task.mutexList }
        go k ms
      | [] => go (k.setMutex m fun mx => { mx with mutexTask := none }) ms

/-- The switch of `krhino_task_del` on the state of a task whose mutexes are handed
on: the task leaves the list it is on and becomes `K_DELETED`; `none` when it is not
alive. -/
def taskDelSwitch (k : Kernel) (t : Nat) : Option Kernel :=
  match (k.tasks t).taskState with
  | .rdy => some ((k.readyListRm t).setTask t fun task => { task with taskState := .deleted })
  | .suspended => some (k.setTask t fun task => { task with taskState := .deleted })
  | .sleep | .sleepSuspended =>
    some ((k.tickListRm t).setTask t fun task => { task with taskState := .deleted })
  | .pend | .pendSuspended =>
    let k := ((k.tickListRm t).blkListRm t).setTask t fun task => { task with taskState := .deleted }
    some (k.mutexTaskPriReset t)
  | _ => none

/-- `krhino_task_del`. The mutexes are handed on before the task's state is looked
at, so a task in a state that cannot be deleted has still given them away. -/
def krhinoTaskDel (k : Kernel) (t : Nat) : Kernel × Kstat :=
  if 0 < k.intrptNested then (k, .notCalledByIntrpt)
  else if (k.tasks t).prio = rhinoIdlePri then (k, .taskDelNotAllowed)
  else if (k.tasks t).mmAllocFlag ≠ kObjStaticAlloc then (k, .kobjDelErr)
  else if t = k.activeTask ∧ 0 < k.schedLock then (k, .schedDisable)
  else
    let k := k.taskMutexFree t
    match k.taskDelSwitch t with
    | some k => (k.coreSched, .success)
    | none => (k, .invTaskState)

/-- What the tick does to one task whose time is up. -/
def tickExpire (k : Kernel) (t : Nat) : Kernel :=
  match (k.tasks t).taskState with
  | .sleep =>
    ((k.setTask t fun task => { task with blkState := .finish, taskState := .rdy }).tickListRm t).readyListAdd t
  | .pend =>
    let k := ((k.tickListRm t).blkListRm t).readyListAdd t
    let k := k.setTask t fun task => { task with blkState := .timeout, taskState := .rdy }
    (k.mutexTaskPriReset t).setTask t fun task => { task with blkObj := none }
  | .pendSuspended =>
    let k := (k.tickListRm t).blkListRm t
    let k := k.setTask t fun task => { task with blkState := .timeout, taskState := .suspended }
    (k.mutexTaskPriReset t).setTask t fun task => { task with blkObj := none }
  | .sleepSuspended =>
    (k.setTask t fun task => { task with taskState := .suspended, blkState := .finish }).tickListRm t
  | _ => k

/-- `tick_list_update`: the tick count advances and the tasks at the front of the
tick list whose time is up are woken, up to the first that still has time. A task's
time is up when the signed difference `tick_match - g_tick_count` is not positive. -/
def tickListUpdate (k : Kernel) (ticks : Nat) : Kernel :=
  let k := { k with tickCount := tickWrap (k.tickCount + ticks) }
  go k k.tickList
where
  go (k : Kernel) : List Nat → Kernel
    | [] => k
    | t :: rest => if tickDelta (k.tasks t).tickMatch k.tickCount ≤ 0 then go (k.tickExpire t) rest else k

/-- `krhino_sched_disable`. -/
def krhinoSchedDisable (k : Kernel) : Kernel × Kstat :=
  if 0 < k.intrptNested then (k, .notCalledByIntrpt)
  else if k.schedLock ≥ schedMaxLockCount then (k, .schedLockCountOvf)
  else ({ k with schedLock := k.schedLock + 1 }, .success)

/-- `krhino_sched_enable`: the switch is requested when the lock reaches zero. -/
def krhinoSchedEnable (k : Kernel) : Kernel × Kstat :=
  if 0 < k.intrptNested then (k, .notCalledByIntrpt)
  else if k.schedLock = 0 then (k, .schedAlreadyEnabled)
  else
    let k := { k with schedLock := k.schedLock - 1 }
    if 0 < k.schedLock then (k, .schedDisable) else (k.coreSched, .success)

/-- `krhino_intrpt_enter`. -/
def krhinoIntrptEnter (k : Kernel) : Kernel :=
  { k with intrptNested := k.intrptNested + 1 }

/-- `krhino_intrpt_exit`: leaving the outermost interrupt switches to the
preferred task unless the scheduler is locked. -/
def krhinoIntrptExit (k : Kernel) : Kernel :=
  let k := { k with intrptNested := k.intrptNested - 1 }
  if 0 < k.intrptNested then k
  else if 0 < k.schedLock then k
  else
    let k := k.preferredCpuReadyTaskGet
    if k.preferredTask = k.activeTask then k else { k with activeTask := k.preferredTask }

/-- `krhino_tick_proc`, run in the tick interrupt. -/
def krhinoTickProc (k : Kernel) : Kernel :=
  (k.tickListUpdate 1).timeSliceUpdate

end Kernel

end Rhino
