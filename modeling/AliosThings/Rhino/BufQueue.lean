import AliosThings.Rhino.TaskOps

/-!
# Buffer queues (`k_buf_queue.c`)

A buffer queue keeps its messages in a ring buffer, dynamic for
`krhino_buf_queue_create` and fixed for `krhino_fix_buf_queue_create`, and
counts them in `cur_num`. A send finds either no waiting receiver, and pushes
the message into the ring, or a blocked receiver, and copies the message
straight into its buffer with its size in `bq_msg_size`.
-/

namespace Rhino

namespace Kernel

/-- `buf_queue_create` on the array `mem` of `size` bytes. -/
def bufQueueCreate (k : Kernel) (q : Nat) (mem : Nat → UInt8) (size maxMsg : Nat)
    (type : RingbufType) : Kernel × Kstat :=
  if maxMsg = 0 then (k, .invParam)
  else if size = 0 then (k, .bufQueueSizeZero)
  else
    let rb := ringbufInit mem size type maxMsg
    (k.setBufQueue q fun _ =>
      { blkObj := ⟨[], .pri, .bufQueue⟩, ringbuf := rb, curNum := 0, peakNum := 0,
        maxMsgSize := maxMsg, minFreeBufSize := rb.freesize }, .success)

/-- `krhino_buf_queue_create`: a dynamic ring of `size` bytes. -/
def krhinoBufQueueCreate (k : Kernel) (q : Nat) (mem : Nat → UInt8) (size maxMsg : Nat) :
    Kernel × Kstat :=
  k.bufQueueCreate q mem size maxMsg .dyn

/-- `krhino_fix_buf_queue_create`: a fixed ring of `msg_num` blocks of `msg_size` bytes. -/
def krhinoFixBufQueueCreate (k : Kernel) (q : Nat) (mem : Nat → UInt8) (msgSize msgNum : Nat) :
    Kernel × Kstat :=
  k.bufQueueCreate q mem (msgSize * msgNum) msgSize .fix

/-- `buf_queue_send` of the `msg_size` bytes at `msg`. -/
def bufQueueSend (k : Kernel) (q : Nat) (msg : List UInt8) (msgSize : Nat) : Kernel × Kstat :=
  let bq := k.bufQueues q
  if bq.blkObj.objType ≠ .bufQueue then (k, .kobjTypeErr)
  else if msgSize > bq.maxMsgSize then (k, .bufQueueMsgSizeOverflow)
  else if msgSize = 0 then (k, .invParam)
  else
    match bq.blkObj.blkList with
    | [] =>
      let (rb, err) := ringbufPush bq.ringbuf msg msgSize
      if err ≠ .success then (k, if err = .ringbufFull then .bufQueueFull else err)
      else
        let curNum := bq.curNum + 1
        (k.setBufQueue q fun bq =>
          { bq with
            ringbuf := rb, curNum := curNum,
            peakNum := if bq.peakNum < curNum then curNum else bq.peakNum,
            minFreeBufSize := if bq.minFreeBufSize > rb.freesize then rb.freesize
                              else bq.minFreeBufSize }, .success)
    | w :: _ =>
      -- the message goes straight to the first receiver
      let k := k.setTask w fun task => { task with msg := msg.take msgSize, bqMsgSize := msgSize }
      ((k.pendTaskWakeup w).coreSched, .success)

/-- `krhino_buf_queue_send`. -/
def krhinoBufQueueSend (k : Kernel) (q : Nat) (msg : List UInt8) (size : Nat) : Kernel × Kstat :=
  k.bufQueueSend q msg size

/-- What a receiver that blocked gets when it runs again: the status, the bytes
in its buffer and `*size`. -/
def bufQueueRecvResult (task : KTask) : Kstat × List UInt8 × Nat :=
  match pendStateEndProc task with
  | .success => (.success, task.msg, task.bqMsgSize)
  | st => (st, task.msg, 0)

/-- `krhino_buf_queue_recv` by the active task: with a message in the ring it pops
it at once; otherwise it blocks. The bytes and `*size` are those of an immediate
return. -/
def krhinoBufQueueRecv (k : Kernel) (q ticks : Nat) : Kernel × KRet × List UInt8 × Nat :=
  let bq := k.bufQueues q
  if 0 < k.intrptNested ∧ ticks ≠ rhinoNoWait then (k, .ret .notCalledByIntrpt, [], 0)
  else if bq.blkObj.objType ≠ .bufQueue then (k, .ret .kobjTypeErr, [], 0)
  else if !ringbufIsEmpty bq.ringbuf then
    let (rb, _, data, plen) := ringbufPop bq.ringbuf
    (k.setBufQueue q fun bq => { bq with ringbuf := rb, curNum := bq.curNum - 1 },
      .ret .success, data, plen.getD 0)
  else if ticks = rhinoNoWait then (k, .ret .noPendWait, [], 0)
  else if 0 < k.schedLock then (k, .ret .schedDisable, [], 0)
  else
    ((k.pendToBlkObj (.bufQueue q) k.activeTask ticks).coreSched, .blocked, [], 0)

/-- `krhino_buf_queue_del`: every waiter is woken with `BLK_DEL` and the ring is reset. -/
def krhinoBufQueueDel (k : Kernel) (q : Nat) : Kernel × Kstat :=
  if 0 < k.intrptNested then (k, .notCalledByIntrpt)
  else if (k.bufQueues q).blkObj.objType ≠ .bufQueue then (k, .kobjTypeErr)
  else
    let k := k.setBufQueue q fun bq => { bq with blkObj := { bq.blkObj with objType := .none } }
    let k := k.pendTaskRmAll (k.bufQueues q).blkObj.blkList
    ((k.setBufQueue q fun bq => { bq with ringbuf := ringbufReset bq.ringbuf }).coreSched, .success)

/-- `krhino_buf_queue_flush`. -/
def krhinoBufQueueFlush (k : Kernel) (q : Nat) : Kernel × Kstat :=
  if 0 < k.intrptNested then (k, .notCalledByIntrpt)
  else if (k.bufQueues q).blkObj.objType ≠ .bufQueue then (k, .kobjTypeErr)
  else
    let rb := ringbufReset (k.bufQueues q).ringbuf
    (k.setBufQueue q fun bq =>
      { bq with ringbuf := rb, curNum := 0, peakNum := 0, minFreeBufSize := rb.freesize }, .success)

end Kernel

end Rhino
