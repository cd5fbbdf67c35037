import AliosThings.Rhino.Sched

/-!
# Blocking: the tick list and the wait lists (`k_tick.c`, `k_pend.c`)

A task that waits with a timeout is on `g_tick_head`, sorted by the ticks it has
left; a task that waits on an object is on the object's blocked list, sorted by
priority under `BLK_POLICY_PRI` (a new task goes after every task of its own
priority) and in arrival order under `BLK_POLICY_FIFO`. Waking a task takes it
off both lists and records why in `blk_state`.
-/

namespace Rhino

/-- `pend_list_add`: the task goes before the first task of a strictly larger
priority number. -/
def pendListAdd (tasks : Nat → KTask) (l : List Nat) (t : Nat) : List Nat :=
  match l with
  | [] => [t]
  | u :: rest =>
    if (tasks u).prio > (tasks t).prio then t :: u :: rest else u :: pendListAdd tasks rest t

@[simp] theorem mem_pendListAdd (tasks : Nat → KTask) (l : List Nat) (t u : Nat) :
    u ∈ pendListAdd tasks l t ↔ u ∈ l ∨ u = t := by
  induction l with
  | nil => simp [pendListAdd]
  | cons v rest ih =>
    unfold pendListAdd
    split
    · simp only [List.mem_cons]
      tauto
    · simp only [List.mem_cons, ih]
      tauto

/-- `pend_list_add` is the insertion of a sorted list: before the first task of a
strictly larger priority number. -/
theorem pendListAdd_eq_orderedInsert (tasks : Nat → KTask) (l : List Nat) (t : Nat) :
    pendListAdd tasks l t = l.orderedInsert (fun a b => (tasks a).prio < (tasks b).prio) t := by
  induction l with
  | nil => rfl
  | cons u rest ih =>
    rw [pendListAdd, List.orderedInsert_cons, ih]

/-- `tick_list_pri_insert`: the task goes before the first task with more ticks left,
counted as the unsigned difference `tick_match - g_tick_count`. -/
def tickListPriInsert (tasks : Nat → KTask) (tickCount : Nat) (l : List Nat) (t : Nat) :
    List Nat :=
  match l with
  | [] => [t]
  | u :: rest =>
    if tickSub (tasks u).tickMatch tickCount > (tasks t).tickRemain then t :: u :: rest
    else u :: tickListPriInsert tasks tickCount rest t

theorem tickListPriInsert_eq_orderedInsert (tasks : Nat → KTask) (tickCount : Nat) (l : List Nat)
    (t : Nat) :
    tickListPriInsert tasks tickCount l t =
      l.orderedInsert (fun a b => (tasks a).tickRemain < tickSub (tasks b).tickMatch tickCount) t := by
  induction l with
  | nil => rfl
  | cons u rest ih =>
    rw [tickListPriInsert, List.orderedInsert_cons, ih]

@[simp] theorem mem_tickListPriInsert (tasks : Nat → KTask) (tickCount : Nat) (l : List Nat)
    (t u : Nat) : u ∈ tickListPriInsert tasks tickCount l t ↔ u = t ∨ u ∈ l := by
  rw [tickListPriInsert_eq_orderedInsert, List.mem_orderedInsert]

/-- `pend_state_end_proc`: what a woken task's blocking call returns. -/
def pendStateEndProc (task : KTask) : Kstat :=
  match task.blkState with
  | .finish => .success
  | .abort => .blkAbort
  | .timeout => .blkTimeout
  | .del => .blkDel
  | .invalid => .blkInvState

namespace Kernel

/-- `tick_list_insert`: a timeout of `0` ticks is not recorded. -/
def tickListInsert (k : Kernel) (t time : Nat) : Kernel :=
  if 0 < time then
    let k := k.setTask t fun task =>
      { task with tickMatch := tickWrap (k.tickCount + time), tickRemain := time }
    let k := { k with tickList := tickListPriInsert k.tasks k.tickCount k.tickList t }
    k.setTask t fun task => { task with tickHead := true }
  else k

/-- `tick_list_rm`. -/
def tickListRm (k : Kernel) (t : Nat) : Kernel :=
  if (k.tasks t).tickHead then
    let k := { k with tickList := k.tickList.erase t }
    k.setTask t fun task => { task with tickHead := false }
  else k

section TickFrame

variable (k : Kernel) (t u : Nat)

/-- The tick list only moves a task's tick fields. -/
@[simp] theorem tickListRm_taskState : ((k.tickListRm t).tasks u).taskState = (k.tasks u).taskState := by
  unfold tickListRm
  split
  · by_cases hu : u = t <;> simp [hu]
  · rfl

@[simp] theorem tickListRm_mmAllocFlag :
    ((k.tickListRm t).tasks u).mmAllocFlag = (k.tasks u).mmAllocFlag := by
  unfold tickListRm
  split
  · by_cases hu : u = t <;> simp [hu]
  · rfl

@[simp] theorem tickListRm_prio : ((k.tickListRm t).tasks u).prio = (k.tasks u).prio := by
  unfold tickListRm
  split
  · by_cases hu : u = t <;> simp [hu]
  · rfl

@[simp] theorem tickListRm_bPrio : ((k.tickListRm t).tasks u).bPrio = (k.tasks u).bPrio := by
  unfold tickListRm
  split
  · by_cases hu : u = t <;> simp [hu]
  · rfl

@[simp] theorem tickListRm_blkState : ((k.tickListRm t).tasks u).blkState = (k.tasks u).blkState := by
  unfold tickListRm
  split
  · by_cases hu : u = t <;> simp [hu]
  · rfl

@[simp] theorem tickListInsert_taskState (time : Nat) :
    ((k.tickListInsert t time).tasks u).taskState = (k.tasks u).taskState := by
  unfold tickListInsert
  split
  · by_cases hu : u = t <;> simp [hu]
  · rfl

@[simp] theorem tickListInsert_prio (time : Nat) :
    ((k.tickListInsert t time).tasks u).prio = (k.tasks u).prio := by
  unfold tickListInsert
  split
  · by_cases hu : u = t <;> simp [hu]
  · rfl

@[simp] theorem tickListInsert_bPrio (time : Nat) :
    ((k.tickListInsert t time).tasks u).bPrio = (k.tasks u).bPrio := by
  unfold tickListInsert
  split
  · by_cases hu : u = t <;> simp [hu]
  · rfl

end TickFrame

/-- `klist_rm(&task->task_list)` for a task on the blocked list of its `blk_obj`. -/
def blkListRm (k : Kernel) (t : Nat) : Kernel :=
  match (k.tasks t).blkObj with
  | some r => k.setBlkList r ((k.blkObj r).blkList.erase t)
  | none => k

@[simp] theorem blkListRm_tasks (k : Kernel) (t : Nat) : (k.blkListRm t).tasks = k.tasks := by
  unfold blkListRm
  split <;> simp

/-- The `switch` of `pend_task_wakeup` and `pend_task_rm`: a waiting task leaves its
blocked list and is ready again, or suspended if it was suspended while waiting.
On any other state the code calls `k_err_proc`. -/
def pendTaskLeave (k : Kernel) (t : Nat) : Kernel :=
  match (k.tasks t).taskState with
  | .pend => ((k.blkListRm t).readyListAdd t).setTask t fun task => { task with taskState := .rdy }
  | .pendSuspended => (k.blkListRm t).setTask t fun task => { task with taskState := .suspended }
  | _ => k

/-- The body shared by `pend_task_wakeup` and `pend_task_rm`, which differ only in
the `blk_state` they record. -/
def pendTaskEnd (k : Kernel) (t : Nat) (st : BlkState) : Kernel :=
  ((k.pendTaskLeave t).tickListRm t).setTask t fun task => { task with blkState := st, blkObj := none }

/-- `pend_task_wakeup`. -/
def pendTaskWakeup (k : Kernel) (t : Nat) : Kernel :=
  k.pendTaskEnd t .finish

/-- `pend_to_blk_obj`: the task leaves the ready list and waits on `r`; the ghost
`pendTimeout` keeps the timeout it waits with, and the ghost `blocked` the task. -/
def pendToBlkObj (k : Kernel) (r : ObjRef) (t timeout : Nat) : Kernel :=
  let k := k.setTask t fun task => { task with blkObj := some r, pendTimeout := timeout }
  let k := if timeout ≠ rhinoWaitForever then k.tickListInsert t timeout else k
  let k := k.setTask t fun task => { task with taskState := .pend }
  let k := k.readyListRm t
  let b := k.blkObj r
  let k := if b.blkPolicy = .fifo then k.setBlkList r (b.blkList ++ [t])
    else k.setBlkList r (pendListAdd k.tasks b.blkList t)
  { k with blocked := k.blocked.insert t }

/-- `pend_task_rm`: as `pend_task_wakeup`, with the reason `BLK_DEL`. -/
def pendTaskRm (k : Kernel) (t : Nat) : Kernel :=
  k.pendTaskEnd t .del

/-- `while (!is_klist_empty(blk_list_head)) pend_task_rm(...)`: every waiter of an
object is woken with `BLK_DEL`, first to last. -/
def pendTaskRmAll (k : Kernel) : List Nat → Kernel
  | [] => k
  | t :: ts => pendTaskRmAll (k.pendTaskRm t) ts

/-- The same loop with `pend_task_wakeup`: every waiter is woken with `BLK_FINISH`. -/
def pendTaskWakeupAll (k : Kernel) : List Nat → Kernel
  | [] => k
  | t :: ts => pendTaskWakeupAll (k.pendTaskWakeup t) ts

/-- `pend_list_reorder`: after a priority change, a task on a priority-sorted list
is taken out and added again. -/
def pendListReorder (k : Kernel) (t : Nat) : Kernel :=
  match (k.tasks t).blkObj with
  | some r =>
    if (k.blkObj r).blkPolicy = .pri then
      let l := (k.blkObj r).blkList.erase t
      k.setBlkList r (pendListAdd k.tasks l t)
    else k
  | none => k

@[simp] theorem pendListReorder_tasks (k : Kernel) (t : Nat) :
    (k.pendListReorder t).tasks = k.tasks := by
  unfold pendListReorder
  split
  · split <;> simp
  · rfl

end Kernel

end Rhino
