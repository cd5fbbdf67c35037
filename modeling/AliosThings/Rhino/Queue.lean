import AliosThings.Rhino.TaskOps

/-!
# Message queues (`k_queue.c`)

A queue passes pointers. It keeps them in a fixed ring buffer of pointer-sized
blocks, `msg_num` of them, and counts them in `msg_q.cur_num`. A send to a full
queue fails before waiters are looked at; otherwise the pointer goes to the
first waiter (to all of them with `WAKE_ALL_TASK`) or into the ring.

A pointer is a number here, stored in the ring as its `sizeof(void *)` bytes,
least significant first, as on the little-endian 32-bit ports.
-/

namespace Rhino

/-- `sizeof(void *)`. -/
def ptrSize : Nat := 4

/-- The bytes of a pointer, as `memcpy` copies them. -/
def ptrBytes (p : Nat) : List UInt8 :=
  (List.range ptrSize).map fun i => UInt8.ofNat (p >>> (8 * i))

/-- The pointer read back from its bytes. -/
def ptrOfBytes (bs : List UInt8) : Nat :=
  bs.foldr (fun b acc => b.toNat + 256 * acc) 0

namespace Kernel

/-- `krhino_queue_create` on the array `start` of `msg_num` pointers. -/
def krhinoQueueCreate (k : Kernel) (q : Nat) (start : Nat → UInt8) (msgNum : Nat) :
    Kernel × Kstat :=
  if msgNum = 0 then (k, .invParam)
  else
    (k.setQueue q fun _ =>
      { blkObj := ⟨[], .pri, .queue⟩, ringbuf := ringbufInit start (msgNum * ptrSize) .fix ptrSize,
        size := msgNum, curNum := 0, peakNum := 0 }, .success)

/-- `krhino_queue_del`: every waiter is woken with `BLK_DEL` and the ring is reset;
`cur_num` is left as it was. -/
def krhinoQueueDel (k : Kernel) (q : Nat) : Kernel × Kstat :=
  if 0 < k.intrptNested then (k, .notCalledByIntrpt)
  else if (k.queues q).blkObj.objType ≠ .queue then (k, .kobjTypeErr)
  else
    let k := k.setQueue q fun mq => { mq with blkObj := { mq.blkObj with objType := .none } }
    let k := k.pendTaskRmAll (k.queues q).blkObj.blkList
    ((k.setQueue q fun mq => { mq with ringbuf := ringbufReset mq.ringbuf }).coreSched, .success)

/-- `task_msg_recv`: the pointer goes to the task, which is woken. -/
def taskMsgRecv (k : Kernel) (t p : Nat) : Kernel :=
  (k.setTask t fun task => { task with qMsg := p }).pendTaskWakeup t

/-- `task_msg_recv` for every waiter, first to last. -/
def taskMsgRecvAll (k : Kernel) (p : Nat) : List Nat → Kernel
  | [] => k
  | t :: ts => taskMsgRecvAll (k.taskMsgRecv t p) p ts

/-- `msg_send`. -/
def msgSend (k : Kernel) (q p : Nat) (wakeAll : Bool) : Kernel × Kstat :=
  let mq := k.queues q
  if mq.blkObj.objType ≠ .queue then (k, .kobjTypeErr)
  else if mq.curNum ≥ mq.size then (k, .queueFull)
  else
    match mq.blkObj.blkList with
    | [] =>
      let curNum := mq.curNum + 1
      (k.setQueue q fun mq =>
        { mq with
          curNum := curNum, peakNum := if curNum > mq.peakNum then curNum else mq.peakNum,
          ringbuf := (ringbufPush mq.ringbuf (ptrBytes p) ptrSize).1 }, .success)
    | w :: ws =>
      if wakeAll then ((k.taskMsgRecvAll p (w :: ws)).coreSched, .success)
      else ((k.taskMsgRecv w p).coreSched, .success)

/-- `krhino_queue_back_send`. -/
def krhinoQueueBackSend (k : Kernel) (q p : Nat) : Kernel × Kstat :=
  k.msgSend q p false

/-- `krhino_queue_all_send`. -/
def krhinoQueueAllSend (k : Kernel) (q p : Nat) : Kernel × Kstat :=
  k.msgSend q p true

/-- `krhino_queue_recv` by the active task, with the pointer of an immediate
return (`NULL` when there is none). -/
def krhinoQueueRecv (k : Kernel) (q ticks : Nat) : Kernel × KRet × Nat :=
  let mq := k.queues q
  if 0 < k.intrptNested ∧ ticks ≠ rhinoNoWait then (k, .ret .notCalledByIntrpt, 0)
  else if mq.blkObj.objType ≠ .queue then (k, .ret .kobjTypeErr, 0)
  else if 0 < mq.curNum then
    let (rb, _, data, _) := ringbufPop mq.ringbuf
    (k.setQueue q fun mq => { mq with ringbuf := rb, curNum := mq.curNum - 1 }, .ret .success,
      ptrOfBytes data)
  else if ticks = rhinoNoWait then (k, .ret .noPendWait, 0)
  else if 0 < k.schedLock then (k, .ret .schedDisable, 0)
  else ((k.pendToBlkObj (.queue q) k.activeTask ticks).coreSched, .blocked, 0)

/-- `krhino_queue_flush`. -/
def krhinoQueueFlush (k : Kernel) (q : Nat) : Kernel × Kstat :=
  if 0 < k.intrptNested then (k, .notCalledByIntrpt)
  else if (k.queues q).blkObj.objType ≠ .queue then (k, .kobjTypeErr)
  else (k.setQueue q fun mq => { mq with curNum := 0, ringbuf := ringbufReset mq.ringbuf }, .success)

end Kernel

end Rhino
