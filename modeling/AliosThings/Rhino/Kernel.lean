import AliosThings.Rhino.Ringbuf

/-!
# The kernel state of a single-core Rhino

The task control block `ktask_t`, the kernel objects a task can block on and
the globals of `k_sys.c` and `k_sched.c`, gathered in one record. Tasks and
objects are named by numbers: `tasks t` is the control block at `t`, and a
control block never filled in by `task_create` is the zeroed one, in state
`K_SEED`.

Intrusive lists are kept as the lists of what they link, read from their head:
the blocked list of an object from `blk_list.next`, a ready list from
`cur_list_item[p]`, the tick list from `g_tick_head.next`, and the chain
`task->mutex_list -> mutex->mutex_list -> ...` as the list of the mutexes it
links. A task's `task_list` node is on at most one of these lists, so unlinking
it (`klist_rm`) is removing the task from the list it is on.
-/

namespace Rhino

/-- `task_stat_t`. -/
inductive TaskState where
  | seed
  | rdy
  | pend
  | suspended
  | pendSuspended
  | sleep
  | sleepSuspended
  | deleted
  deriving DecidableEq, Repr

/-- `blk_state_t`: why a blocked task was woken. -/
inductive BlkState where
  | finish
  | abort
  | timeout
  | del
  | invalid
  deriving DecidableEq, Repr

/-- `blk_policy_t`. -/
inductive BlkPolicy where
  | pri
  | fifo
  deriving DecidableEq, Repr

/-- `kobj_type_t`. -/
inductive ObjType where
  | none
  | sem
  | mutex
  | queue
  | bufQueue
  | timer
  | event
  | mm
  deriving DecidableEq, Repr

/-- `KSCHED_FIFO` and `KSCHED_RR`. -/
inductive SchedPolicy where
  | fifo
  | rr
  deriving DecidableEq, Repr

/-- The idle task's control block. -/
def idleTask : Nat := 0

/-- A `blk_obj_t *`: the object a task is blocked on. -/
inductive ObjRef where
  | sem (i : Nat)
  | mutex (i : Nat)
  | queue (i : Nat)
  | bufQueue (i : Nat)
  | event (i : Nat)
  deriving DecidableEq, Repr

def rhinoConfigPriMax : Nat := 62
def rhinoIdlePri : Nat := rhinoConfigPriMax - 1
def rhinoNoWait : Nat := 0
def rhinoWaitForever : Nat := 2 ^ 64 - 1

/-- `K_OBJ_STATIC_ALLOC` and `K_OBJ_DYN_ALLOC`, the values of `mm_alloc_flag`. -/
def kObjStaticAlloc : Nat := 1
def kObjDynAlloc : Nat := 2

/-- A value stored into a `tick_t`, a `uint64_t`. -/
def tickWrap (n : Nat) : Nat := n % 2 ^ 64

/-- `a - b` on two `tick_t` values. -/
def tickSub (a b : Nat) : Nat := (a + 2 ^ 64 - b % 2 ^ 64) % 2 ^ 64

/-- `(tick_i_t)a - (tick_i_t)b`: the difference of two ticks read as an `int64_t`,
the subtraction wrapping as the targets compute it. -/
def tickDelta (a b : Nat) : Int :=
  if tickSub a b < 2 ^ 63 then tickSub a b else (tickSub a b : Int) - 2 ^ 64
def schedMaxLockCount : Nat := 200
def rhinoConfigTimeSliceDefault : Nat := 50
/-- `NUM_WORDS`: the words of the ready bitmap. -/
def numWords : Nat := (rhinoConfigPriMax + 31) / 32

/-- `ktask_t`, with the fields the scheduler and the kernel objects use. `msg` is
the buffer `task->msg` points at, as the bytes a buffer queue copied there, and
`qMsg` the pointer a `kqueue` hands over in the same field. `pendTimeout` is ghost
state: the `timeout` that `pend_to_blk_obj` last blocked the task with, which the
code keeps only through `tick_list_insert`, and only when it is finite. -/
structure KTask where
  prio : Nat
  bPrio : Nat
  taskState : TaskState
  suspendCount : Nat
  blkObj : Option ObjRef
  blkState : BlkState
  tickMatch : Nat
  tickRemain : Nat
  tickHead : Bool
  mutexList : List Nat
  msg : List UInt8
  qMsg : Nat
  bqMsgSize : Nat
  pendFlags : UInt32
  pendOption : Nat
  pendInfo : UInt32
  timeSlice : Nat
  timeTotal : Nat
  schedPolicy : SchedPolicy
  mmAllocFlag : Nat
  pendTimeout : Nat

/-- A control block cleared by `memset`: the state `K_SEED`, everything zero. -/
def KTask.zero : KTask where
  prio := 0
  bPrio := 0
  taskState := .seed
  suspendCount := 0
  blkObj := none
  blkState := .finish
  tickMatch := 0
  tickRemain := 0
  tickHead := false
  mutexList := []
  msg := []
  qMsg := 0
  bqMsgSize := 0
  pendFlags := 0
  pendOption := 0
  pendInfo := 0
  timeSlice := 0
  timeTotal := 0
  schedPolicy := .fifo
  mmAllocFlag := 0
  pendTimeout := 0

/-- `blk_obj_t`. -/
structure BlkObj where
  blkList : List Nat
  blkPolicy : BlkPolicy
  objType : ObjType

def BlkObj.none : BlkObj := ⟨[], .pri, .none⟩

/-- `kmutex_t`; its `mutex_list` link is part of the owner's chain. -/
structure KMutex where
  blkObj : BlkObj
  mutexTask : Option Nat
  ownerNested : Nat

/-- `ksem_t`. -/
structure KSem where
  blkObj : BlkObj
  count : Nat
  peakCount : Nat

/-- `kqueue_t`: pointers kept in a fixed ring buffer of pointer-sized blocks. -/
structure KQueue where
  blkObj : BlkObj
  ringbuf : KRingbuf
  size : Nat
  curNum : Nat
  peakNum : Nat

/-- `kbuf_queue_t`. -/
structure KBufQueue where
  blkObj : BlkObj
  ringbuf : KRingbuf
  curNum : Nat
  peakNum : Nat
  maxMsgSize : Nat
  minFreeBufSize : Nat

/-- `kevent_t`. -/
structure KEvent where
  blkObj : BlkObj
  flags : UInt32

/-- `runqueue_t`: the circular list of each priority read from
`cur_list_item[p]`, the bitmap of non-empty lists and `highest_pri`. -/
structure RunQueue where
  curListItem : Nat → List Nat
  taskBitMap : Nat → UInt32
  highestPri : Nat

/-- The kernel globals on one CPU, and the objects. `blocked` is ghost state: the
tasks `pend_to_blk_obj` has blocked so far, each once. -/
structure Kernel where
  tasks : Nat → KTask
  readyQueue : RunQueue
  activeTask : Nat
  preferredTask : Nat
  schedLock : Nat
  intrptNested : Nat
  tickCount : Nat
  tickList : List Nat
  idleTaskSpawned : Bool
  mutexes : Nat → KMutex
  sems : Nat → KSem
  queues : Nat → KQueue
  bufQueues : Nat → KBufQueue
  events : Nat → KEvent
  blocked : List Nat

namespace Kernel

/-- Update the control block of task `t`. -/
def setTask (k : Kernel) (t : Nat) (f : KTask → KTask) : Kernel :=
  { k with tasks := fun u => if u = t then f (k.tasks t) else k.tasks u }

def setMutex (k : Kernel) (m : Nat) (f : KMutex → KMutex) : Kernel :=
  { k with mutexes := fun u => if u = m then f (k.mutexes m) else k.mutexes u }

def setSem (k : Kernel) (s : Nat) (f : KSem → KSem) : Kernel :=
  { k with sems := fun u => if u = s then f (k.sems s) else k.sems u }

def setQueue (k : Kernel) (q : Nat) (f : KQueue → KQueue) : Kernel :=
  { k with queues := fun u => if u = q then f (k.queues q) else k.queues u }

def setBufQueue (k : Kernel) (q : Nat) (f : KBufQueue → KBufQueue) : Kernel :=
  { k with bufQueues := fun u => if u = q then f (k.bufQueues q) else k.bufQueues u }

def setEvent (k : Kernel) (e : Nat) (f : KEvent → KEvent) : Kernel :=
  { k with events := fun u => if u = e then f (k.events e) else k.events u }

/-- The `blk_obj_t` behind a blocked task's `blk_obj` pointer. -/
def blkObj (k : Kernel) : ObjRef → BlkObj
  | .sem i => (k.sems i).blkObj
  | .mutex i => (k.mutexes i).blkObj
  | .queue i => (k.queues i).blkObj
  | .bufQueue i => (k.bufQueues i).blkObj
  | .event i => (k.events i).blkObj

/-- Replace the blocked list of an object. -/
def setBlkList (k : Kernel) (r : ObjRef) (l : List Nat) : Kernel :=
  match r with
  | .sem i => k.setSem i fun s => { s with blkObj := { s.blkObj with blkList := l } }
  | .mutex i => k.setMutex i fun m => { m with blkObj := { m.blkObj with blkList := l } }
  | .queue i => k.setQueue i fun q => { q with blkObj := { q.blkObj with blkList := l } }
  | .bufQueue i => k.setBufQueue i fun q => { q with blkObj := { q.blkObj with blkList := l } }
  | .event i => k.setEvent i fun e => { e with blkObj := { e.blkObj with blkList := l } }

/-- The running task, `g_active_task[cpu_cur_get()]`. -/
def active (k : Kernel) : KTask :=
  k.tasks k.activeTask

@[simp] theorem setTask_tasks (k : Kernel) (t : Nat) (f : KTask → KTask) (u : Nat) :
    (k.setTask t f).tasks u = if u = t then f (k.tasks t) else k.tasks u := rfl

@[simp] theorem setTask_mutexes (k : Kernel) (t : Nat) (f : KTask → KTask) :
    (k.setTask t f).mutexes = k.mutexes := rfl

@[simp] theorem setTask_bufQueues (k : Kernel) (t : Nat) (f : KTask → KTask) :
    (k.setTask t f).bufQueues = k.bufQueues := rfl

@[simp] theorem setTask_readyQueue (k : Kernel) (t : Nat) (f : KTask → KTask) :
    (k.setTask t f).readyQueue = k.readyQueue := rfl

@[simp] theorem setTask_activeTask (k : Kernel) (t : Nat) (f : KTask → KTask) :
    (k.setTask t f).activeTask = k.activeTask := rfl

@[simp] theorem setTask_blkObj (k : Kernel) (t : Nat) (f : KTask → KTask) (r : ObjRef) :
    (k.setTask t f).blkObj r = k.blkObj r := by
  cases r <;> rfl

@[simp] theorem setMutex_tasks (k : Kernel) (m : Nat) (f : KMutex → KMutex) :
    (k.setMutex m f).tasks = k.tasks := rfl

@[simp] theorem setBufQueue_tasks (k : Kernel) (q : Nat) (f : KBufQueue → KBufQueue) :
    (k.setBufQueue q f).tasks = k.tasks := rfl

@[simp] theorem setMutex_mutexes (k : Kernel) (m : Nat) (f : KMutex → KMutex) (u : Nat) :
    (k.setMutex m f).mutexes u = if u = m then f (k.mutexes m) else k.mutexes u := rfl

@[simp] theorem setBufQueue_bufQueues (k : Kernel) (q : Nat) (f : KBufQueue → KBufQueue)
    (u : Nat) :
    (k.setBufQueue q f).bufQueues u = if u = q then f (k.bufQueues q) else k.bufQueues u := rfl

/-- Only the blocked list of `r` changes. -/
@[simp] theorem blkObj_setBlkList (k : Kernel) (r r' : ObjRef) (l : List Nat) :
    (k.setBlkList r l).blkObj r' = if r' = r then { k.blkObj r with blkList := l } else k.blkObj r' := by
  cases r <;> cases r' <;> simp [setBlkList, blkObj, setSem, setMutex, setQueue, setBufQueue, setEvent] <;>
    split <;> rfl

@[simp] theorem blkObj_setSem (k : Kernel) (s : Nat) (f : KSem → KSem) (r : ObjRef) :
    (k.setSem s f).blkObj r = if r = .sem s then (f (k.sems s)).blkObj else k.blkObj r := by
  cases r <;> simp [blkObj, setSem, apply_ite KSem.blkObj]

@[simp] theorem blkObj_setMutex (k : Kernel) (m : Nat) (f : KMutex → KMutex) (r : ObjRef) :
    (k.setMutex m f).blkObj r = if r = .mutex m then (f (k.mutexes m)).blkObj else k.blkObj r := by
  cases r <;> simp [blkObj, setMutex, apply_ite KMutex.blkObj]

@[simp] theorem blkObj_setQueue (k : Kernel) (q : Nat) (f : KQueue → KQueue) (r : ObjRef) :
    (k.setQueue q f).blkObj r = if r = .queue q then (f (k.queues q)).blkObj else k.blkObj r := by
  cases r <;> simp [blkObj, setQueue, apply_ite KQueue.blkObj]

@[simp] theorem blkObj_setBufQueue (k : Kernel) (q : Nat) (f : KBufQueue → KBufQueue) (r : ObjRef) :
    (k.setBufQueue q f).blkObj r =
      if r = .bufQueue q then (f (k.bufQueues q)).blkObj else k.blkObj r := by
  cases r <;> simp [blkObj, setBufQueue, apply_ite KBufQueue.blkObj]

@[simp] theorem blkObj_setEvent (k : Kernel) (e : Nat) (f : KEvent → KEvent) (r : ObjRef) :
    (k.setEvent e f).blkObj r = if r = .event e then (f (k.events e)).blkObj else k.blkObj r := by
  cases r <;> simp [blkObj, setEvent, apply_ite KEvent.blkObj]

/-- No mutex changes owner or nesting count when a blocked list is replaced. -/
theorem setBlkList_mutexes (k : Kernel) (r : ObjRef) (l : List Nat) (m : Nat) :
    (k.setBlkList r l).mutexes m =
      { k.mutexes m with blkObj := ((k.setBlkList r l).mutexes m).blkObj } := by
  cases r <;> simp [setBlkList, setSem, setQueue, setBufQueue, setEvent]
  split <;> simp_all

@[simp] theorem setBlkList_tasks (k : Kernel) (r : ObjRef) (l : List Nat) :
    (k.setBlkList r l).tasks = k.tasks := by
  cases r <;> rfl

end Kernel

end Rhino
