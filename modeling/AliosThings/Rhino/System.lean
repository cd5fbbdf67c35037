import AliosThings.Rhino.Mutex
import AliosThings.Rhino.BufQueue
import AliosThings.Rhino.Sem
import AliosThings.Rhino.Queue
import AliosThings.Rhino.Event
import AliosThings.Lib.Machine

/-!
# The kernel as a state machine

`krhino_init` and `krhino_start` give the first state: an empty ready queue
(`highest_pri` at `RHINO_CONFIG_PRI_MAX`), the idle task created as task `0`
and running. From there the system answers calls: each call of `KCall` is a
kernel service made by the running task, or a tick interrupt. A run is
`Machine.exec Kernel.call`.
-/

namespace Rhino

/-- A call on the kernel. -/
inductive KCall where
  | taskCreate (t prio ticks : Nat) (autorun : Bool)
  | taskSleep (ticks : Nat)
  | taskYield
  | taskSuspend (t : Nat)
  | taskResume (t : Nat)
  | taskPriChange (t pri : Nat)
  | taskWaitAbort (t : Nat)
  | taskDel (t : Nat)
  | schedDisable
  | schedEnable
  | tick
  | mutexCreate (m : Nat)
  | mutexLock (m ticks : Nat)
  | mutexUnlock (m : Nat)
  | mutexDel (m : Nat)
  | bufQueueCreate (q : Nat) (mem : Nat → UInt8) (size maxMsg : Nat)
  | fixBufQueueCreate (q : Nat) (mem : Nat → UInt8) (msgSize msgNum : Nat)
  | bufQueueSend (q : Nat) (msg : List UInt8) (size : Nat)
  | bufQueueRecv (q ticks : Nat)
  | bufQueueFlush (q : Nat)
  | bufQueueDel (q : Nat)
  | semCreate (s count : Nat)
  | semDel (s : Nat)
  | semGive (s : Nat)
  | semGiveAll (s : Nat)
  | semTake (s ticks : Nat)
  | semCountSet (s count : Nat)
  | queueCreate (q : Nat) (start : Nat → UInt8) (msgNum : Nat)
  | queueDel (q : Nat)
  | queueBackSend (q p : Nat)
  | queueAllSend (q p : Nat)
  | queueRecv (q ticks : Nat)
  | queueFlush (q : Nat)
  | eventCreate (e : Nat) (flags : UInt32)
  | eventDel (e : Nat)
  | eventGet (e : Nat) (flags : UInt32) (opt ticks : Nat)
  | eventSet (e : Nat) (flags : UInt32) (opt : Nat)

namespace Kernel

/-- The state before `krhino_init`: nothing created, every object zero. -/
def zero : Kernel where
  tasks := fun _ => KTask.zero
  readyQueue := ⟨fun _ => [], fun _ => 0, 0⟩
  activeTask := 0
  preferredTask := 0
  schedLock := 0
  intrptNested := 0
  tickCount := 0
  tickList := []
  idleTaskSpawned := false
  mutexes := fun _ => ⟨BlkObj.none, none, 0⟩
  sems := fun _ => ⟨BlkObj.none, 0, 0⟩
  queues := fun _ => ⟨BlkObj.none, ringbufInit (fun _ => 0) 0 .fix 0, 0, 0, 0⟩
  bufQueues := fun _ => ⟨BlkObj.none, ringbufInit (fun _ => 0) 0 .dyn 0, 0, 0, 0, 0⟩
  events := fun _ => ⟨BlkObj.none, 0⟩
  blocked := []

/-- `krhino_init` followed by `krhino_start`: `runqueue_init`, the idle task, and
the switch to it. -/
def krhinoInit : Kernel :=
  let k := { zero with readyQueue := { zero.readyQueue with highestPri := rhinoConfigPriMax } }
  (k.krhinoTaskCreate idleTask rhinoIdlePri 0 true).1

/-- One call, answered. -/
def call (k : Kernel) : KCall → Kernel × KRet
  | .taskCreate t prio ticks autorun =>
    let r := k.krhinoTaskCreate t prio ticks autorun
    (r.1, .ret r.2)
  | .taskSleep ticks => k.krhinoTaskSleep ticks
  | .taskYield => let r := k.krhinoTaskYield; (r.1, .ret r.2)
  | .taskSuspend t => let r := k.krhinoTaskSuspend t; (r.1, .ret r.2)
  | .taskResume t => let r := k.krhinoTaskResume t; (r.1, .ret r.2)
  | .taskPriChange t pri => let r := k.krhinoTaskPriChange t pri; (r.1, .ret r.2)
  | .taskWaitAbort t => let r := k.krhinoTaskWaitAbort t; (r.1, .ret r.2)
  | .taskDel t => let r := k.krhinoTaskDel t; (r.1, .ret r.2)
  | .schedDisable => let r := k.krhinoSchedDisable; (r.1, .ret r.2)
  | .schedEnable => let r := k.krhinoSchedEnable; (r.1, .ret r.2)
  | .tick => ((k.krhinoIntrptEnter.krhinoTickProc).krhinoIntrptExit, .ret .success)
  | .mutexCreate m => (k.krhinoMutexCreate m, .ret .success)
  | .mutexLock m ticks => k.krhinoMutexLock m ticks
  | .mutexUnlock m => let r := k.krhinoMutexUnlock m; (r.1, .ret r.2)
  | .mutexDel m => let r := k.krhinoMutexDel m; (r.1, .ret r.2)
  | .bufQueueCreate q mem size maxMsg =>
    let r := k.krhinoBufQueueCreate q mem size maxMsg
    (r.1, .ret r.2)
  | .fixBufQueueCreate q mem msgSize msgNum =>
    let r := k.krhinoFixBufQueueCreate q mem msgSize msgNum
    (r.1, .ret r.2)
  | .bufQueueSend q msg size => let r := k.krhinoBufQueueSend q msg size; (r.1, .ret r.2)
  | .bufQueueRecv q ticks => let r := k.krhinoBufQueueRecv q ticks; (r.1, r.2.1)
  | .bufQueueFlush q => let r := k.krhinoBufQueueFlush q; (r.1, .ret r.2)
  | .bufQueueDel q => let r := k.krhinoBufQueueDel q; (r.1, .ret r.2)
  | .semCreate s count => (k.krhinoSemCreate s count, .ret .success)
  | .semDel s => let r := k.krhinoSemDel s; (r.1, .ret r.2)
  | .semGive s => let r := k.krhinoSemGive s; (r.1, .ret r.2)
  | .semGiveAll s => let r := k.krhinoSemGiveAll s; (r.1, .ret r.2)
  | .semTake s ticks => k.krhinoSemTake s ticks
  | .semCountSet s count => let r := k.krhinoSemCountSet s count; (r.1, .ret r.2)
  | .queueCreate q start msgNum =>
    let r := k.krhinoQueueCreate q start msgNum
    (r.1, .ret r.2)
  | .queueDel q => let r := k.krhinoQueueDel q; (r.1, .ret r.2)
  | .queueBackSend q p => let r := k.krhinoQueueBackSend q p; (r.1, .ret r.2)
  | .queueAllSend q p => let r := k.krhinoQueueAllSend q p; (r.1, .ret r.2)
  | .queueRecv q ticks => let r := k.krhinoQueueRecv q ticks; (r.1, r.2.1)
  | .queueFlush q => let r := k.krhinoQueueFlush q; (r.1, .ret r.2)
  | .eventCreate e flags => (k.krhinoEventCreate e flags, .ret .success)
  | .eventDel e => let r := k.krhinoEventDel e; (r.1, .ret r.2)
  | .eventGet e flags opt ticks => let r := k.krhinoEventGet e flags opt ticks; (r.1, r.2.1)
  | .eventSet e flags opt => let r := k.krhinoEventSet e flags opt; (r.1, .ret r.2)

end Kernel

end Rhino
