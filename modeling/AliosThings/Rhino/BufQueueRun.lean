import AliosThings.Rhino.Frame
import AliosThings.Rhino.ObjInv

/-!
# Buffer queues over whole runs

A buffer queue is live while its `obj_type` says so. Its ring then holds the
messages `cur_num` counts, and a receiver waits on it only while the ring is
empty, since `krhino_buf_queue_recv` blocks only then and `buf_queue_send` hands
a message to a waiter instead of pushing it. Every other call leaves the queue
and its waiters alone: `BufKept q` is that frame, an instance of `KFrame`.
-/

namespace Rhino

/-- The ring of a buffer queue holds the messages `l`, oldest first: `cur_num`
counts them, and a fixed ring stores blocks of `max_msg_size` bytes. -/
structure KBufQueue.Holds (bq : KBufQueue) (l : List (List UInt8)) : Prop where
  ring : RingbufDynInv bq.ringbuf l ∨ RingbufFixInv bq.ringbuf l
  cur : l.length = bq.curNum
  blk : bq.ringbuf.type = .fix → bq.ringbuf.blkSize = bq.maxMsgSize

namespace KBufQueue

variable {bq bq' : KBufQueue} {l : List (List UInt8)}

theorem Holds.empty_iff (h : bq.Holds l) : ringbufIsEmpty bq.ringbuf = true ↔ l = [] := by
  rcases h.ring with hd | hf
  · exact ringbufIsEmpty_iff hd
  · exact ringbufIsEmpty_fix_iff hf

theorem Holds.of_eq (h : bq.Holds l) (hr : bq'.ringbuf = bq.ringbuf) (hc : bq'.curNum = bq.curNum)
    (hm : bq'.maxMsgSize = bq.maxMsgSize) : bq'.Holds l where
  ring := hr ▸ h.ring
  cur := hc ▸ h.cur
  blk := hr ▸ hm ▸ h.blk

end KBufQueue

/-- `ringbuf_reset` empties a dynamic buffer. -/
theorem RingbufDynInv.reset {rb : KRingbuf} {q : List (List UInt8)} (hI : RingbufDynInv rb q) :
    RingbufDynInv (ringbufReset rb) [] where
  dyn := hI.dyn
  size_pos := hI.size_pos
  head_le := Nat.zero_le _
  tail_le := Nat.zero_le _
  free := by simp [ringbufReset]
  tail_pos := by simp [ringbufReset]
  data := by simp [ringbufReset]
  msgs := by simp

/-- A push keeps the kind of the ring. -/
theorem ringbufPush_type (rb : KRingbuf) (data : List UInt8) (len : Nat) :
    (ringbufPush rb data len).1.type = rb.type := by
  unfold ringbufPush
  split
  · rfl
  split
  · rfl
  · obtain ⟨lenBytes, cLen⟩ := ringbufHeadlenCompress len [0, 0, 0]
    simp -zeta only
    split_ifs <;> rfl

/-- A pop keeps the kind of the ring. -/
theorem ringbufPop_type (rb : KRingbuf) : (ringbufPop rb).1.type = rb.type := by
  unfold ringbufPop
  split
  · rfl
  split
  · rfl
  · dsimp only
    split <;> rfl

namespace KBufQueue

variable {bq bq' : KBufQueue} {l : List (List UInt8)}

/-- The message a push of the `size` bytes at `msg` stores: those bytes in a
dynamic ring, a whole block in a fixed one. -/
def stored (bq : KBufQueue) (msg : List UInt8) (size : Nat) : List UInt8 :=
  match bq.ringbuf.type with
  | .dyn => msg.take size
  | .fix => ringbufFixBlock bq.ringbuf msg

/-- A fixed ring stores what was sent when a whole block is sent. -/
theorem Holds.stored_eq (h : bq.Holds l) {msg : List UInt8} {size : Nat} (hlen : size ≤ msg.length)
    (hfix : bq.ringbuf.type = .fix → size = bq.maxMsgSize) : bq.stored msg size = msg.take size := by
  unfold stored
  cases ht : bq.ringbuf.type with
  | dyn => rfl
  | fix =>
    have hb : bq.ringbuf.blkSize = size := (h.blk ht).trans (hfix ht).symm
    simp only []
    rw [ringbufFixBlock_of_le (by omega), hb]

/-- A successful push of at least `size` bytes stores one more message. -/
theorem Holds.push (h : bq.Holds l) {msg : List UInt8} {size : Nat} (hpos : 0 < size)
    (hlen : size ≤ msg.length) (hok : (ringbufPush bq.ringbuf msg size).2 = .success)
    (hr : bq'.ringbuf = (ringbufPush bq.ringbuf msg size).1) (hc : bq'.curNum = bq.curNum + 1)
    (hm : bq'.maxMsgSize = bq.maxMsgSize) : bq'.Holds (l ++ [bq.stored msg size]) := by
  have hcur : (l ++ [bq.stored msg size]).length = bq'.curNum := by
    rw [List.length_append, List.length_singleton, h.cur, hc]
  rcases h.ring with hd | hf
  · rcases ringbufPush_dyn_cases hd hpos hlen with ⟨rb', hpush, -, hI'⟩ | ⟨err, hne, hpush⟩
    · rw [hpush] at hr
      have hst : bq.stored msg size = msg.take size := by simp [stored, hd.dyn]
      refine ⟨.inl (hr ▸ hst ▸ hI'), hcur, fun hfix => ?_⟩
      rw [hr, hI'.dyn] at hfix
      exact absurd hfix (by decide)
    · rw [hpush] at hok
      exact absurd hok hne
  · by_cases hroom : bq.ringbuf.blkSize ≤ bq.ringbuf.freesize
    · obtain ⟨rb', hpush, -, hblk, hI'⟩ := ringbufPush_fix_any hf msg size hroom
      rw [hpush] at hr
      have hst : bq.stored msg size = ringbufFixBlock bq.ringbuf msg := by simp [stored, hf.fix]
      refine ⟨.inr (hr ▸ hst ▸ hI'), hcur, fun _ => ?_⟩
      rw [hr, hblk, hm]
      exact h.blk hf.fix
    · rw [ringbufPush_fix_full hf msg size (by omega)] at hok
      exact absurd hok (by simp)

/-- A pop takes the oldest message and reports its length. -/
theorem Holds.pop {m : List UInt8} (h : bq.Holds (m :: l))
    (hr : bq'.ringbuf = (ringbufPop bq.ringbuf).1) (hc : bq'.curNum = bq.curNum - 1)
    (hm : bq'.maxMsgSize = bq.maxMsgSize) :
    bq'.Holds l ∧ (ringbufPop bq.ringbuf).2.2 = (m, some m.length) := by
  have hcur : l.length = bq'.curNum := by
    have := h.cur
    simp only [List.length_cons] at this
    omega
  rcases h.ring with hd | hf
  · obtain ⟨rb', hpop, -, hI'⟩ := ringbufPop_dyn_ok hd
    rw [hpop] at hr ⊢
    refine ⟨⟨.inl (hr ▸ hI'), hcur, fun hfix => ?_⟩, rfl⟩
    rw [hr, hI'.dyn] at hfix
    exact absurd hfix (by decide)
  · obtain ⟨rb', hpop, -, hblk, hI'⟩ := ringbufPop_fix_ok hf
    rw [hpop] at hr ⊢
    refine ⟨⟨.inr (hr ▸ hI'), hcur, fun _ => ?_⟩, by rw [hf.blocks m (by simp)]⟩
    rw [hr, hblk, hm]
    exact h.blk hf.fix

/-- `ringbuf_reset` with `cur_num` at zero leaves no message. -/
theorem Holds.reset (h : bq.Holds l) (hr : bq'.ringbuf = ringbufReset bq.ringbuf) (hc : bq'.curNum = 0)
    (hm : bq'.maxMsgSize = bq.maxMsgSize) : bq'.Holds [] where
  ring := hr ▸ h.ring.imp RingbufDynInv.reset RingbufFixInv.reset
  cur := hc.symm
  blk hfix := by
    rw [hr] at hfix ⊢
    rw [hm]
    exact h.blk hfix

end KBufQueue

namespace Kernel

variable {k k' k'' : Kernel}

/-- What a live buffer queue keeps: its ring holds the messages `cur_num` counts,
and a task waits on it only while the ring is empty. -/
def BufOk (k : Kernel) (q : Nat) : Prop :=
  (k.bufQueues q).blkObj.objType = .bufQueue →
    (∃ l, (k.bufQueues q).Holds l) ∧
      ∀ t, (k.tasks t).WaitsOn (.bufQueue q) → ringbufIsEmpty (k.bufQueues q).ringbuf = true

/-- Every buffer queue is `BufOk`. -/
def BufInv (k : Kernel) : Prop :=
  ∀ q, k.BufOk q

/-! ### The frame of a buffer queue -/

/-- The step from `k` to `k'` leaves the buffer queue `q` as it was, and gives a
new wait on it only to tasks of `W`. -/
structure BufKept (q : Nat) (W : Nat → Prop) (k k' : Kernel) : Prop where
  waits : ∀ t, (k'.tasks t).WaitsOn (.bufQueue q) → (k.tasks t).WaitsOn (.bufQueue q) ∨ W t
  live : (k'.bufQueues q).blkObj.objType = (k.bufQueues q).blkObj.objType
  ring : (k'.bufQueues q).ringbuf = (k.bufQueues q).ringbuf
  cur : (k'.bufQueues q).curNum = (k.bufQueues q).curNum
  maxMsg : (k'.bufQueues q).maxMsgSize = (k.bufQueues q).maxMsgSize

variable {q : Nat} {W : Nat → Prop}

/-- A step of the frame keeps `BufOk` when the tasks it lets wait find the ring empty. -/
theorem BufOk.of_bufKept (h : k.BufOk q) (hs : BufKept q W k k')
    (hW : ∀ t, W t → (k.bufQueues q).blkObj.objType = .bufQueue → ringbufIsEmpty (k.bufQueues q).ringbuf = true) :
    k'.BufOk q := by
  intro hlive
  have hlive₀ := hs.live ▸ hlive
  obtain ⟨⟨l, hl⟩, hempty⟩ := h hlive₀
  refine ⟨⟨l, hl.of_eq hs.ring hs.cur hs.maxMsg⟩, fun t hw => ?_⟩
  rw [hs.ring]
  rcases hs.waits t hw with hw₀ | hWt
  · exact hempty t hw₀
  · exact hW t hWt hlive₀

theorem BufKept.refl (q : Nat) (W : Nat → Prop) (k : Kernel) : BufKept q W k k :=
  ⟨fun _ hw => .inl hw, rfl, rfl, rfl, rfl⟩

theorem BufKept.trans (h₁ : BufKept q W k k') (h₂ : BufKept q W k' k'') : BufKept q W k k'' where
  waits t hw := (h₂.waits t hw).elim (h₁.waits t) .inr
  live := h₂.live.trans h₁.live
  ring := h₂.ring.trans h₁.ring
  cur := h₂.cur.trans h₁.cur
  maxMsg := h₂.maxMsg.trans h₁.maxMsg

/-- A step that leaves the tasks and the buffer queue. -/
theorem bufKept_of_tasks (htasks : k'.tasks = k.tasks) (hbq : k'.bufQueues q = k.bufQueues q) :
    BufKept q W k k' :=
  ⟨fun _ hw => .inl (by rwa [htasks] at hw), by rw [hbq], by rw [hbq], by rw [hbq], by rw [hbq]⟩

theorem bufKept_setTask {t : Nat} {f : KTask → KTask}
    (hw : ∀ r, (f (k.tasks t)).IsPend ∧ (f (k.tasks t)).blkObj = some r →
      (k.tasks t).IsPend ∧ (k.tasks t).blkObj = some r) : BufKept q W k (k.setTask t f) where
  waits u hwu := by
    by_cases hu : u = t
    · subst hu
      simp only [setTask_tasks, if_true] at hwu
      exact .inl (hw _ hwu)
    · exact .inl (by simpa [hu] using hwu)
  live := rfl
  ring := rfl
  cur := rfl
  maxMsg := rfl

/-- Only the blocked list of a buffer queue changes with it. -/
theorem setBlkList_bufQueues (r : ObjRef) (l : List Nat) (q : Nat) :
    (k.setBlkList r l).bufQueues q = if r = .bufQueue q then
      { k.bufQueues q with blkObj := { (k.bufQueues q).blkObj with blkList := l } } else k.bufQueues q := by
  cases r with
  | bufQueue i =>
    by_cases hi : q = i
    · subst hi
      simp [setBlkList, setBufQueue]
    · simp [setBlkList, setBufQueue, hi, Ne.symm hi]
  | _ => rfl

theorem bufKept_setBlkList (r : ObjRef) (l : List Nat) : BufKept q W k (k.setBlkList r l) := by
  refine ⟨fun t hw => .inl (by simpa using hw), ?_, ?_, ?_, ?_⟩ <;> rw [setBlkList_bufQueues] <;>
    split <;> rfl

/-- The frame without its blocking rule: enough for the lists and the tick. -/
theorem bufKept_preframe (q : Nat) (W : Nat → Prop) : KFrame (BufKept q W) (fun _ _ _ => False) where
  refl := BufKept.refl q W
  trans := BufKept.trans
  objects htasks _ _ _ hbq := bufKept_of_tasks htasks (by rw [hbq])
  setTask hw _ _ := bufKept_setTask hw
  quiet hp := bufKept_setTask fun _ hw => absurd hw.1 hp
  setBlkList k r l := bufKept_setBlkList (k := k) r l
  block _ _ hB := hB.elim

/-- `pend_to_blk_obj` adds to a blocked list and keeps every ring: the only new
wait is that of `t` on `r`. -/
theorem bufKept_pendToBlkObj {t : Nat} {r : ObjRef} (hp : ¬(k.tasks t).IsPend)
    (hr : r = .bufQueue q → W t) (timeout : Nat) : BufKept q W k (k.pendToBlkObj r t timeout) := by
  have hF := bufKept_preframe q W
  unfold Kernel.pendToBlkObj
  dsimp only
  set k₁ := k.setTask t fun task => { task with blkObj := some r, pendTimeout := timeout }
  set k₂ := if timeout ≠ rhinoWaitForever then k₁.tickListInsert t timeout else k₁ with hk₂
  have h₁ : BufKept q W k k₁ := hF.quiet hp
  have h₂ : BufKept q W k₁ k₂ := by
    rw [hk₂]
    split
    · exact hF.tickListInsert t timeout
    · exact hF.refl k₁
  have hb₂ : (k₂.tasks t).blkObj = some r := by
    rw [hk₂]
    split
    · unfold Kernel.tickListInsert
      split <;> simp [k₁]
    · simp [k₁]
  -- the task now waits, on `r`
  have h₃ : BufKept q W k₂ (k₂.setTask t fun task => { task with taskState := .pend }) := by
    refine ⟨fun u hw => ?_, rfl, rfl, rfl, rfl⟩
    by_cases hu : u = t
    · subst hu
      have hb := hw.2
      simp only [setTask_tasks, if_true, hb₂] at hb
      exact .inr (hr (Option.some_injective _ hb))
    · exact .inl (by simpa [hu] using hw)
  have h₄ := ((h₁.trans h₂).trans h₃).trans (hF.readyListRm t)
  split
  · exact (h₄.trans (bufKept_setBlkList _ _)).trans (hF.objects rfl rfl rfl rfl rfl)
  · exact (h₄.trans (bufKept_setBlkList _ _)).trans (hF.objects rfl rfl rfl rfl rfl)

/-- `BufKept` is a frame: a block is allowed on any object but `q`, and on `q` for
the tasks of `W`. -/
theorem bufKept_kFrame (q : Nat) (W : Nat → Prop) :
    KFrame (BufKept q W) (fun _ t r => r = .bufQueue q → W t) where
  __ := bufKept_preframe q W
  block timeout hp hr := bufKept_pendToBlkObj hp hr timeout

/-! ### The services of the other objects -/

theorem bufKept_setSem (s : Nat) (f : KSem → KSem) : BufKept q W k (k.setSem s f) :=
  bufKept_of_tasks rfl rfl

theorem bufKept_setQueue (q' : Nat) (f : KQueue → KQueue) : BufKept q W k (k.setQueue q' f) :=
  bufKept_of_tasks rfl rfl

theorem bufKept_setEvent (e : Nat) (f : KEvent → KEvent) : BufKept q W k (k.setEvent e f) :=
  bufKept_of_tasks rfl rfl

theorem bufKept_setBufQueue {q' : Nat} (hq : q' ≠ q) (f : KBufQueue → KBufQueue) :
    BufKept q W k (k.setBufQueue q' f) :=
  bufKept_of_tasks rfl (by simp [Ne.symm hq])

theorem bufKept_krhinoSemDel (s : Nat) : BufKept q W k (k.krhinoSemDel s).1 := by
  have hF := bufKept_kFrame q W
  unfold Kernel.krhinoSemDel
  split
  · exact BufKept.refl q W k
  split
  · exact BufKept.refl q W k
  exact ((bufKept_setSem _ _).trans (hF.pendTaskRmAll _)).trans hF.coreSched

theorem bufKept_semGive (s : Nat) (wakeAll : Bool) : BufKept q W k (k.semGive s wakeAll).1 := by
  have hF := bufKept_kFrame q W
  unfold Kernel.semGive
  dsimp only
  split
  · exact BufKept.refl q W k
  split
  · split
    · exact BufKept.refl q W k
    · dsimp only
      exact bufKept_setSem _ _
  · split
    · exact (hF.pendTaskWakeupAll _).trans hF.coreSched
    · exact (hF.pendTaskEnd _ .finish).trans hF.coreSched

theorem bufKept_krhinoSemTake (h : k.Inv) (s ticks : Nat) : BufKept q W k (k.krhinoSemTake s ticks).1 := by
  unfold Kernel.krhinoSemTake
  split
  · exact BufKept.refl q W k
  split
  · exact BufKept.refl q W k
  split
  · dsimp only
    exact bufKept_setSem _ _
  split
  · exact BufKept.refl q W k
  split
  · exact BufKept.refl q W k
  · dsimp only
    exact (bufKept_kFrame q W).pend h (r := .sem s) (fun hr => nomatch hr) ticks

theorem bufKept_krhinoSemCountSet (s count : Nat) : BufKept q W k (k.krhinoSemCountSet s count).1 := by
  unfold Kernel.krhinoSemCountSet
  split_ifs
  · exact BufKept.refl q W k
  · exact BufKept.refl q W k
  · exact BufKept.refl q W k
  · dsimp only
    exact bufKept_setSem _ _

theorem bufKept_krhinoQueueCreate (q' : Nat) (start : Nat → UInt8) (msgNum : Nat) :
    BufKept q W k (k.krhinoQueueCreate q' start msgNum).1 := by
  unfold Kernel.krhinoQueueCreate
  split
  · exact BufKept.refl q W k
  · dsimp only
    exact bufKept_setQueue _ _

theorem bufKept_krhinoQueueDel (q' : Nat) : BufKept q W k (k.krhinoQueueDel q').1 := by
  have hF := bufKept_kFrame q W
  unfold Kernel.krhinoQueueDel
  split
  · exact BufKept.refl q W k
  split
  · exact BufKept.refl q W k
  exact (((bufKept_setQueue _ _).trans (hF.pendTaskRmAll _)).trans (bufKept_setQueue _ _)).trans
    hF.coreSched

theorem bufKept_msgSend (q' p : Nat) (wakeAll : Bool) : BufKept q W k (k.msgSend q' p wakeAll).1 := by
  have hF := bufKept_kFrame q W
  unfold Kernel.msgSend
  dsimp only
  split
  · exact BufKept.refl q W k
  split
  · exact BufKept.refl q W k
  split
  · dsimp only
    exact bufKept_setQueue _ _
  · split
    · exact (hF.taskMsgRecvAll _ _).trans hF.coreSched
    · exact (hF.taskMsgRecv _ _).trans hF.coreSched

theorem bufKept_krhinoQueueRecv (h : k.Inv) (q' ticks : Nat) :
    BufKept q W k (k.krhinoQueueRecv q' ticks).1 := by
  unfold Kernel.krhinoQueueRecv
  dsimp only
  split
  · exact BufKept.refl q W k
  split
  · exact BufKept.refl q W k
  split
  · dsimp only
    exact bufKept_setQueue _ _
  split
  · exact BufKept.refl q W k
  split
  · exact BufKept.refl q W k
  · dsimp only
    exact (bufKept_kFrame q W).pend h (r := .queue q') (fun hr => nomatch hr) ticks

theorem bufKept_krhinoQueueFlush (q' : Nat) : BufKept q W k (k.krhinoQueueFlush q').1 := by
  unfold Kernel.krhinoQueueFlush
  split
  · exact BufKept.refl q W k
  split
  · exact BufKept.refl q W k
  · dsimp only
    exact bufKept_setQueue _ _

theorem bufKept_krhinoEventDel (e : Nat) : BufKept q W k (k.krhinoEventDel e).1 := by
  have hF := bufKept_kFrame q W
  unfold Kernel.krhinoEventDel
  split
  · exact BufKept.refl q W k
  split
  · exact BufKept.refl q W k
  exact (((bufKept_setEvent _ _).trans (hF.pendTaskRmAll _)).trans (bufKept_setEvent _ _)).trans
    hF.coreSched

theorem bufKept_krhinoEventGet (h : k.Inv) (e : Nat) (flags : UInt32) (opt ticks : Nat) :
    BufKept q W k (k.krhinoEventGet e flags opt ticks).1 := by
  have hF := bufKept_kFrame q W
  unfold Kernel.krhinoEventGet
  dsimp only
  split
  · exact BufKept.refl q W k
  split
  · exact BufKept.refl q W k
  split
  · exact BufKept.refl q W k
  split
  · split
    · dsimp only
      exact bufKept_setEvent _ _
    · exact BufKept.refl q W k
  split
  · exact BufKept.refl q W k
  split
  · exact BufKept.refl q W k
  -- the running task records what it waits for, and blocks on the event
  have hp := not_isPend_of_isRdy h.active_rdy
  have h₁ : BufKept q W k (k.setTask k.activeTask fun task => { task with pendOption := opt, pendFlags := flags }) :=
    hF.quiet (by simpa [KTask.IsPend] using hp)
  refine (h₁.trans (hF.block ticks (r := .event e) ?_ (fun hr => by cases hr))).trans hF.coreSched
  simpa [KTask.IsPend] using hp

theorem bufKept_eventSetWake (e : Nat) (cur : UInt32) (l : List Nat) :
    BufKept q W k (k.eventSetWake e cur l) := by
  have hF := bufKept_kFrame q W
  induction l generalizing k with
  | nil => exact BufKept.refl q W k
  | cons t l ih =>
    unfold Kernel.eventSetWake
    dsimp only
    split
    · have h₁ : BufKept q W k ((k.setTask t fun task => { task with pendInfo := cur }).pendTaskWakeup t) :=
        (hF.setTask (fun _ hw => hw) rfl rfl).trans (hF.pendTaskEnd t .finish)
      refine h₁.trans ?_
      split
      · exact (bufKept_setEvent _ _).trans ih
      · exact ih
    · exact ih

theorem bufKept_krhinoEventSet (e : Nat) (flags : UInt32) (opt : Nat) :
    BufKept q W k (k.krhinoEventSet e flags opt).1 := by
  unfold Kernel.krhinoEventSet Kernel.eventSet
  dsimp only
  split
  · exact BufKept.refl q W k
  split
  · exact BufKept.refl q W k
  split
  · dsimp only
    exact bufKept_setEvent _ _
  · exact ((bufKept_setEvent _ _).trans (bufKept_eventSetWake _ _ _)).trans (bufKept_kFrame q W).coreSched

/-! ### The services of another buffer queue -/

theorem bufKept_bufQueueCreate {q' : Nat} (hq : q' ≠ q) (mem : Nat → UInt8) (size maxMsg : Nat)
    (type : RingbufType) : BufKept q W k (k.bufQueueCreate q' mem size maxMsg type).1 := by
  unfold Kernel.bufQueueCreate
  split
  · exact BufKept.refl q W k
  split
  · exact BufKept.refl q W k
  · dsimp only
    exact bufKept_setBufQueue hq _

/-- A message given to a waiter leaves the ring alone: the waiter's buffer gets it. -/
theorem bufKept_handover (w : Nat) (msg : List UInt8) (size : Nat) :
    BufKept q W k ((k.setTask w fun task => { task with msg := msg.take size, bqMsgSize := size }).pendTaskWakeup
      w).coreSched := by
  have hF := bufKept_kFrame q W
  exact ((hF.setTask (fun _ hw => hw) rfl rfl).trans (hF.pendTaskEnd w .finish)).trans hF.coreSched

theorem bufKept_krhinoBufQueueSend {q' : Nat} (hq : q' ≠ q) (msg : List UInt8) (size : Nat) :
    BufKept q W k (k.krhinoBufQueueSend q' msg size).1 := by
  unfold Kernel.krhinoBufQueueSend Kernel.bufQueueSend
  dsimp only
  split
  · exact BufKept.refl q W k
  split
  · exact BufKept.refl q W k
  split
  · exact BufKept.refl q W k
  split
  · split
    · exact BufKept.refl q W k
    · dsimp only
      exact bufKept_setBufQueue hq _
  · exact bufKept_handover _ _ _

theorem bufKept_krhinoBufQueueRecv (h : k.Inv) {q' : Nat} (hq : q' ≠ q) (ticks : Nat) :
    BufKept q W k (k.krhinoBufQueueRecv q' ticks).1 := by
  unfold Kernel.krhinoBufQueueRecv
  dsimp only
  split
  · exact BufKept.refl q W k
  split
  · exact BufKept.refl q W k
  split
  · dsimp only
    exact bufKept_setBufQueue hq _
  split
  · exact BufKept.refl q W k
  split
  · exact BufKept.refl q W k
  · dsimp only
    exact (bufKept_kFrame q W).pend h (r := .bufQueue q') (fun hr => absurd (ObjRef.bufQueue.inj hr) hq) ticks

theorem bufKept_krhinoBufQueueFlush {q' : Nat} (hq : q' ≠ q) : BufKept q W k (k.krhinoBufQueueFlush q').1 := by
  unfold Kernel.krhinoBufQueueFlush
  split
  · exact BufKept.refl q W k
  split
  · exact BufKept.refl q W k
  · dsimp only
    exact bufKept_setBufQueue hq _

theorem bufKept_krhinoBufQueueDel {q' : Nat} (hq : q' ≠ q) : BufKept q W k (k.krhinoBufQueueDel q').1 := by
  have hF := bufKept_kFrame q W
  unfold Kernel.krhinoBufQueueDel
  split
  · exact BufKept.refl q W k
  split
  · exact BufKept.refl q W k
  exact (((bufKept_setBufQueue hq _).trans (hF.pendTaskRmAll _)).trans (bufKept_setBufQueue hq _)).trans
    hF.coreSched

end Kernel

/-- The calls on the buffer queue `q`. -/
def KCall.OnBufQueue (q : Nat) : KCall → Prop
  | .bufQueueCreate q' _ _ _ | .fixBufQueueCreate q' _ _ _ | .bufQueueSend q' _ _ | .bufQueueRecv q' _
  | .bufQueueFlush q' | .bufQueueDel q' => q' = q
  | _ => False

/-- `buf_queue_send` copies `msg_size` bytes from `msg`: a send passes at least
that many. -/
def KCall.bytesOk : KCall → Bool
  | .bufQueueSend _ msg size => decide (size ≤ msg.length)
  | _ => true

namespace Kernel

variable {k k' k'' : Kernel} {q : Nat} {W : Nat → Prop}

/-- Every call that is not on `q` is a step of its frame. -/
theorem bufKept_call (h : k.Inv) (c : KCall) (hc : ¬c.OnBufQueue q) : BufKept q W k (k.call c).1 := by
  have hF := bufKept_kFrame q W
  cases c with
  | taskCreate t prio ticks autorun => exact hF.krhinoTaskCreate t prio ticks autorun
  | taskSleep ticks => exact hF.krhinoTaskSleep ticks
  | taskYield => exact hF.krhinoTaskYield
  | taskSuspend t => exact hF.krhinoTaskSuspend t
  | taskResume t => exact hF.krhinoTaskResume t
  | taskPriChange t pri => exact hF.krhinoTaskPriChange t pri
  | taskWaitAbort t => exact hF.krhinoTaskWaitAbort t
  | taskDel t => exact hF.krhinoTaskDel t
  | schedDisable => exact hF.krhinoSchedDisable
  | schedEnable => exact hF.krhinoSchedEnable
  | tick => exact hF.tick
  | mutexCreate m => exact hF.krhinoMutexCreate m
  | mutexLock m ticks => exact hF.krhinoMutexLock (fun _ _ _ hr => nomatch hr) h m ticks
  | mutexUnlock m => exact hF.krhinoMutexUnlock m
  | mutexDel m => exact hF.krhinoMutexDel m
  | bufQueueCreate q' mem size maxMsg => exact bufKept_bufQueueCreate hc mem size maxMsg .dyn
  | fixBufQueueCreate q' mem msgSize msgNum => exact bufKept_bufQueueCreate hc mem _ msgSize .fix
  | bufQueueSend q' msg size => exact bufKept_krhinoBufQueueSend hc msg size
  | bufQueueRecv q' ticks => exact bufKept_krhinoBufQueueRecv h hc ticks
  | bufQueueFlush q' => exact bufKept_krhinoBufQueueFlush hc
  | bufQueueDel q' => exact bufKept_krhinoBufQueueDel hc
  | semCreate s count => exact bufKept_setSem (k := k) s fun _ => ⟨⟨[], .pri, .sem⟩, count, count⟩
  | semDel s => exact bufKept_krhinoSemDel s
  | semGive s => exact bufKept_semGive s false
  | semGiveAll s => exact bufKept_semGive s true
  | semTake s ticks => exact bufKept_krhinoSemTake h s ticks
  | semCountSet s count => exact bufKept_krhinoSemCountSet s count
  | queueCreate q' start msgNum => exact bufKept_krhinoQueueCreate q' start msgNum
  | queueDel q' => exact bufKept_krhinoQueueDel q'
  | queueBackSend q' p => exact bufKept_msgSend q' p false
  | queueAllSend q' p => exact bufKept_msgSend q' p true
  | queueRecv q' ticks => exact bufKept_krhinoQueueRecv h q' ticks
  | queueFlush q' => exact bufKept_krhinoQueueFlush q'
  | eventCreate e flags => exact bufKept_setEvent (k := k) e fun _ => ⟨⟨[], .pri, .event⟩, flags⟩
  | eventDel e => exact bufKept_krhinoEventDel e
  | eventGet e flags opt ticks => exact bufKept_krhinoEventGet h e flags opt ticks
  | eventSet e flags opt => exact bufKept_krhinoEventSet e flags opt

/-! ### The calls on the queue itself -/

/-- What `krhino_buf_queue_send` can do: be refused and change nothing, push the
message into the ring of a queue nobody waits on, or copy it to the first waiter. -/
theorem krhinoBufQueueSend_cases (q : Nat) (msg : List UInt8) (size : Nat) :
    ((k.krhinoBufQueueSend q msg size).2 ≠ .success ∧ (k.krhinoBufQueueSend q msg size).1 = k) ∨
    ((k.krhinoBufQueueSend q msg size).2 = .success ∧ (k.bufQueues q).blkObj.objType = .bufQueue ∧
      0 < size ∧ (k.bufQueues q).blkObj.blkList = [] ∧
      (ringbufPush (k.bufQueues q).ringbuf msg size).2 = .success ∧
      ((k.krhinoBufQueueSend q msg size).1.bufQueues q).ringbuf =
        (ringbufPush (k.bufQueues q).ringbuf msg size).1 ∧
      ((k.krhinoBufQueueSend q msg size).1.bufQueues q).curNum = (k.bufQueues q).curNum + 1 ∧
      ((k.krhinoBufQueueSend q msg size).1.bufQueues q).maxMsgSize = (k.bufQueues q).maxMsgSize ∧
      ((k.krhinoBufQueueSend q msg size).1.bufQueues q).blkObj = (k.bufQueues q).blkObj ∧
      (k.krhinoBufQueueSend q msg size).1.tasks = k.tasks) ∨
    ((k.krhinoBufQueueSend q msg size).2 = .success ∧ ∃ w ws, (k.bufQueues q).blkObj.blkList = w :: ws ∧
      (k.krhinoBufQueueSend q msg size).1 =
        ((k.setTask w fun task => { task with msg := msg.take size, bqMsgSize := size }).pendTaskWakeup w).coreSched) := by
  unfold Kernel.krhinoBufQueueSend Kernel.bufQueueSend
  dsimp only
  split
  · exact .inl ⟨by simp, rfl⟩
  split
  · exact .inl ⟨by simp, rfl⟩
  split
  · exact .inl ⟨by simp, rfl⟩
  rename_i hlive _ hsize
  split
  · rename_i hl
    split
    · exact .inl ⟨by split <;> simp_all, rfl⟩
    · rename_i hok
      exact .inr (.inl ⟨rfl, by simpa using hlive, Nat.pos_of_ne_zero hsize, hl, by simpa using hok,
        by simp, by simp, by simp, by simp, rfl⟩)
  · rename_i w ws hl
    exact .inr (.inr ⟨rfl, w, ws, hl, rfl⟩)

/-- What `krhino_buf_queue_recv` can do: be refused and change nothing, pop the
oldest message of a ring that has one, or block the caller on an empty ring. -/
theorem krhinoBufQueueRecv_cases (q ticks : Nat) :
    ((k.krhinoBufQueueRecv q ticks).2.1 ≠ .ret .success ∧ (k.krhinoBufQueueRecv q ticks).2.1 ≠ .blocked ∧
      (k.krhinoBufQueueRecv q ticks).1 = k) ∨
    ((k.krhinoBufQueueRecv q ticks).2.1 = .ret .success ∧ (k.bufQueues q).blkObj.objType = .bufQueue ∧
      ringbufIsEmpty (k.bufQueues q).ringbuf = false ∧
      (k.krhinoBufQueueRecv q ticks).2.2 =
        ((ringbufPop (k.bufQueues q).ringbuf).2.2.1, ((ringbufPop (k.bufQueues q).ringbuf).2.2.2).getD 0) ∧
      ((k.krhinoBufQueueRecv q ticks).1.bufQueues q).ringbuf = (ringbufPop (k.bufQueues q).ringbuf).1 ∧
      ((k.krhinoBufQueueRecv q ticks).1.bufQueues q).curNum = (k.bufQueues q).curNum - 1 ∧
      ((k.krhinoBufQueueRecv q ticks).1.bufQueues q).maxMsgSize = (k.bufQueues q).maxMsgSize ∧
      ((k.krhinoBufQueueRecv q ticks).1.bufQueues q).blkObj = (k.bufQueues q).blkObj ∧
      (k.krhinoBufQueueRecv q ticks).1.tasks = k.tasks) ∨
    ((k.krhinoBufQueueRecv q ticks).2.1 = .blocked ∧ (k.bufQueues q).blkObj.objType = .bufQueue ∧
      ringbufIsEmpty (k.bufQueues q).ringbuf = true ∧
      (k.krhinoBufQueueRecv q ticks).1 = (k.pendToBlkObj (.bufQueue q) k.activeTask ticks).coreSched) := by
  unfold Kernel.krhinoBufQueueRecv
  dsimp only
  split
  · exact .inl ⟨by simp, by simp, rfl⟩
  split
  · exact .inl ⟨by simp, by simp, rfl⟩
  rename_i hlive
  split
  · rename_i hne
    exact .inr (.inl ⟨rfl, by simpa using hlive, by simpa using hne, rfl, by simp, by simp, by simp, by simp,
      rfl⟩)
  split
  · exact .inl ⟨by simp, by simp, rfl⟩
  split
  · exact .inl ⟨by simp, by simp, rfl⟩
  · rename_i hne _ _
    exact .inr (.inr ⟨rfl, by simpa using hlive, by simpa using hne, rfl⟩)

/-- Ending a wait leaves the buffer and the size a sender copied to the task. -/
theorem pendTaskEnd_msg (t : Nat) (st : BlkState) (u : Nat) :
    ((k.pendTaskEnd t st).tasks u).msg = (k.tasks u).msg ∧
      ((k.pendTaskEnd t st).tasks u).bqMsgSize = (k.tasks u).bqMsgSize := by
  have hleave : ((k.pendTaskLeave t).tasks u).msg = (k.tasks u).msg ∧
      ((k.pendTaskLeave t).tasks u).bqMsgSize = (k.tasks u).bqMsgSize := by
    unfold pendTaskLeave
    split <;> by_cases hu : u = t <;> simp [hu]
  have hrm : ∀ k' : Kernel, ((k'.tickListRm t).tasks u).msg = (k'.tasks u).msg ∧
      ((k'.tickListRm t).tasks u).bqMsgSize = (k'.tasks u).bqMsgSize := by
    intro k'
    unfold tickListRm
    split <;> by_cases hu : u = t <;> simp [hu]
  have hend := hrm (k.pendTaskLeave t)
  by_cases hu : u = t
  · subst hu
    simp [pendTaskEnd, hend.1, hend.2, hleave.1, hleave.2]
  · simp [pendTaskEnd, hu, hend.1, hend.2, hleave.1, hleave.2]

/-- A task woken by a sender reads back, when it resumes in
`krhino_buf_queue_recv`, the buffer and size the sender copied to it. -/
theorem bufQueueRecvResult_pendTaskWakeup (t : Nat) :
    bufQueueRecvResult ((k.pendTaskWakeup t).tasks t) = (.success, (k.tasks t).msg, (k.tasks t).bqMsgSize) := by
  have hm := pendTaskEnd_msg (k := k) t .finish t
  have hst : ((k.pendTaskWakeup t).tasks t).blkState = .finish := by
    simp [pendTaskWakeup, pendTaskEnd]
  simp only [pendTaskWakeup] at hst ⊢
  simp [bufQueueRecvResult, pendStateEndProc, hst, hm.1, hm.2]

/-- The direct path: the first waiter of the queue obtains the `size` bytes sent,
with `size` as their length. -/
theorem krhinoBufQueueSend_handover {q : Nat} {msg : List UInt8} {size w : Nat} {ws : List Nat}
    (hl : (k.bufQueues q).blkObj.blkList = w :: ws) (hok : (k.krhinoBufQueueSend q msg size).2 = .success) :
    bufQueueRecvResult ((k.krhinoBufQueueSend q msg size).1.tasks w) = (.success, msg.take size, size) := by
  rcases k.krhinoBufQueueSend_cases q msg size with ⟨hne, _⟩ | ⟨_, _, _, hl', -⟩ | ⟨_, w', ws', hl', hk⟩
  · exact absurd hok hne
  · rw [hl] at hl'
    exact absurd hl' (by simp)
  · rw [hl] at hl'
    obtain ⟨rfl, -⟩ := List.cons.inj hl'
    rw [hk, coreSched_tasks, bufQueueRecvResult_pendTaskWakeup]
    simp

/-- A queue that holds nothing is `BufOk`, whoever waits on it. -/
theorem bufOk_of_nil (hh : (k.bufQueues q).Holds []) : k.BufOk q :=
  fun _ => ⟨⟨[], hh⟩, fun _ _ => hh.empty_iff.mpr rfl⟩

theorem BufOk.krhinoBufQueueCreate (h : k.BufOk q) (mem : Nat → UInt8) (size maxMsg : Nat) :
    (k.krhinoBufQueueCreate q mem size maxMsg).1.BufOk q := by
  unfold Kernel.krhinoBufQueueCreate Kernel.bufQueueCreate
  split
  · exact h
  split
  · exact h
  rename_i hs
  apply bufOk_of_nil
  simp only [setBufQueue_bufQueues, if_true]
  exact ⟨.inl (ringbufDynInv_init mem (Nat.pos_of_ne_zero hs) maxMsg), rfl, fun h => RingbufType.noConfusion h⟩

theorem BufOk.krhinoFixBufQueueCreate (h : k.BufOk q) (mem : Nat → UInt8) (msgSize msgNum : Nat) :
    (k.krhinoFixBufQueueCreate q mem msgSize msgNum).1.BufOk q := by
  unfold Kernel.krhinoFixBufQueueCreate Kernel.bufQueueCreate
  split
  · exact h
  split
  · exact h
  rename_i hb hs
  -- `msg_num` blocks of `msg_size` bytes, both positive
  have hn : 0 < msgNum := Nat.pos_of_ne_zero fun h0 => hs (by rw [h0, Nat.mul_zero])
  apply bufOk_of_nil
  simp only [setBufQueue_bufQueues, if_true]
  refine ⟨.inr ?_, rfl, fun _ => rfl⟩
  rw [Nat.mul_comm]
  exact ringbufFixInv_init mem (Nat.pos_of_ne_zero hb) hn

/-- A send pushes only into the ring of a queue nobody waits on. -/
theorem BufOk.krhinoBufQueueSend (h : k.BufOk q) (hw : k.WaitInv) {msg : List UInt8} {size : Nat}
    (hlen : size ≤ msg.length) : (k.krhinoBufQueueSend q msg size).1.BufOk q := by
  rcases k.krhinoBufQueueSend_cases q msg size with ⟨_, hk⟩ | ⟨_, hlive, hpos, hl, hok, hr, hc, hm, _, ht⟩ |
    ⟨_, w, ws, _, hk⟩
  · rw [hk]
    exact h
  · intro _
    obtain ⟨⟨l, hh⟩, -⟩ := h hlive
    refine ⟨⟨_, hh.push hpos hlen hok hr hc hm⟩, fun t hwt => ?_⟩
    rw [ht] at hwt
    exact absurd hwt (hw.not_waitsOn (r := .bufQueue q) hl t)
  · rw [hk]
    exact h.of_bufKept (bufKept_handover (W := fun _ => False) w msg size) fun _ h => h.elim

/-- A receive pops from a ring that holds a message, and blocks only on an empty one. -/
theorem BufOk.krhinoBufQueueRecv (hk : k.Inv) (h : k.BufOk q) (ticks : Nat) :
    (k.krhinoBufQueueRecv q ticks).1.BufOk q := by
  rcases k.krhinoBufQueueRecv_cases q ticks with ⟨_, _, hk'⟩ | ⟨_, hlive, hne, _, hr, hc, hm, _, ht⟩ |
    ⟨_, hlive, hemp, hk'⟩
  · rw [hk']
    exact h
  · intro _
    obtain ⟨⟨l, hh⟩, hempty⟩ := h hlive
    cases l with
    | nil => exact absurd (hh.empty_iff.mpr rfl) (by simp [hne])
    | cons m l =>
      -- nobody waited on a ring that held a message, and the tasks are as they were
      refine ⟨⟨l, (hh.pop hr hc hm).1⟩, fun t hwt => ?_⟩
      rw [ht] at hwt
      exact absurd (hempty t hwt) (by simp [hne])
  · rw [hk']
    exact h.of_bufKept ((bufKept_kFrame q (· = k.activeTask)).pend hk (r := .bufQueue q) (fun _ => rfl) ticks)
      fun _ _ _ => hemp

theorem BufOk.krhinoBufQueueFlush (h : k.BufOk q) : (k.krhinoBufQueueFlush q).1.BufOk q := by
  unfold Kernel.krhinoBufQueueFlush
  split
  · exact h
  split
  · exact h
  rename_i hlive
  obtain ⟨⟨l, hh⟩, -⟩ := h (by simpa using hlive)
  exact bufOk_of_nil (hh.reset (by simp) (by simp) (by simp))

/-- `krhino_buf_queue_del` leaves the queue dead. -/
theorem BufOk.krhinoBufQueueDel (h : k.BufOk q) : (k.krhinoBufQueueDel q).1.BufOk q := by
  unfold Kernel.krhinoBufQueueDel
  split
  · exact h
  split
  · exact h
  dsimp only
  set k₁ := k.setBufQueue q fun bq => { bq with blkObj := { bq.blkObj with objType := .none } } with hk₁
  have h₂ := (bufKept_preframe q (fun _ => False)).pendTaskRmAll (k := k₁) (k₁.bufQueues q).blkObj.blkList
  intro hlive
  simp only [coreSched_bufQueues, setBufQueue_bufQueues, if_true] at hlive
  rw [h₂.live] at hlive
  simp [hk₁] at hlive

/-- Every call passing at least the bytes it sends keeps `BufInv`. -/
theorem BufInv.call (h : k.Inv) (hw : k.WaitInv) (hb : k.BufInv) (c : KCall) (hbytes : c.bytesOk = true) :
    (k.call c).1.BufInv := by
  intro q
  by_cases hq : c.OnBufQueue q
  · cases c with
    | bufQueueCreate q' mem size maxMsg =>
      subst hq
      exact (hb q').krhinoBufQueueCreate mem size maxMsg
    | fixBufQueueCreate q' mem msgSize msgNum =>
      subst hq
      exact (hb q').krhinoFixBufQueueCreate mem msgSize msgNum
    | bufQueueSend q' msg size =>
      subst hq
      exact (hb q').krhinoBufQueueSend hw (by simpa [KCall.bytesOk] using hbytes)
    | bufQueueRecv q' ticks =>
      subst hq
      exact (hb q').krhinoBufQueueRecv h ticks
    | bufQueueFlush q' =>
      subst hq
      exact (hb q').krhinoBufQueueFlush
    | bufQueueDel q' =>
      subst hq
      exact (hb q').krhinoBufQueueDel
    | _ => exact absurd hq id
  · exact (hb q).of_bufKept (bufKept_call (W := fun _ => False) h c hq) fun _ h => h.elim

/-- No buffer queue is live before `krhino_init`. -/
theorem krhinoInit_bufInv : krhinoInit.BufInv := by
  intro q
  unfold krhinoInit
  refine BufOk.of_bufKept (fun hlive => ?_) ((bufKept_kFrame q (fun _ => False)).krhinoTaskCreate _ _ _ _)
    fun _ h => h.elim
  change (zero.bufQueues q).blkObj.objType = .bufQueue at hlive
  simp [zero, BlkObj.none] at hlive

/-- A call admitted by the kernel that passes at least the bytes it sends. -/
def sendOk (k : Kernel) (c : KCall) : Bool :=
  k.callOk c && c.bytesOk

/-- The states of runs from `krhino_init` whose sends pass their bytes. -/
def SendReachable (k : Kernel) : Prop :=
  ∃ cs, Machine.allowed call sendOk krhinoInit cs = true ∧ Machine.exec call krhinoInit cs = k

theorem sendOk_keeps (h : k.Inv) (hw : k.WaitInv) (hb : k.BufInv) (c : KCall) (hc : k.sendOk c = true) :
    (k.call c).1.Inv ∧ (k.call c).1.WaitInv ∧ (k.call c).1.BufInv := by
  simp only [sendOk, Bool.and_eq_true] at hc
  exact ⟨h.call c hc.1, hw.call h c hc.1, hb.call h hw c hc.2⟩

theorem SendReachable.bufInv (hk : k.SendReachable) : k.Inv ∧ k.WaitInv ∧ k.BufInv := by
  obtain ⟨cs, hok, rfl⟩ := hk
  exact Machine.exec_invariant_allowed (fun k => k.Inv ∧ k.WaitInv ∧ k.BufInv)
    (fun _ c h hc => sendOk_keeps h.1 h.2.1 h.2.2 c hc) ⟨krhinoInit_inv, krhinoInit_waitInv, krhinoInit_bufInv⟩ hok

/-! ### The messages a run passes through one queue

Over a run that neither makes again, flushes nor deletes a live queue, the
messages it held before and those the sends gave are, in order, those the
receivers obtained and those it holds after. A receiver obtains a message either
from `krhino_buf_queue_recv` popping the ring, or from the send that wakes it.
-/

/-- A message as a receiver reports it: its bytes and their number. -/
def bqEntry (m : List UInt8) : List UInt8 × Nat :=
  (m, m.length)

/-- The messages passed through a buffer queue: those the sends gave, with the
size passed, and those the receivers obtained, with the size reported. -/
structure BqFlow where
  sent : List (List UInt8 × Nat)
  got : List (List UInt8 × Nat)
  deriving DecidableEq

/-- What one call passes through `q`. A send to a queue with waiters copies the
message to the first one, which reads it when it resumes. -/
def bqFlow (q : Nat) (k : Kernel) : KCall → BqFlow
  | .bufQueueSend q' msg size =>
    if q' = q ∧ (k.krhinoBufQueueSend q' msg size).2 = .success then
      ⟨[(msg.take size, size)],
        match (k.bufQueues q').blkObj.blkList with
        | [] => []
        | w :: _ => [(bufQueueRecvResult ((k.krhinoBufQueueSend q' msg size).1.tasks w)).2]⟩
    else ⟨[], []⟩
  | .bufQueueRecv q' ticks =>
    if q' = q ∧ (k.krhinoBufQueueRecv q' ticks).2.1 = .ret .success then
      ⟨[], [(k.krhinoBufQueueRecv q' ticks).2.2]⟩
    else ⟨[], []⟩
  | _ => ⟨[], []⟩

/-- What a run passes through `q`, call by call. -/
def bqLedger (q : Nat) : Kernel → List KCall → BqFlow
  | _, [] => ⟨[], []⟩
  | k, c :: cs =>
    ⟨(bqFlow q k c).sent ++ (bqLedger q (k.call c).1 cs).sent,
      (bqFlow q k c).got ++ (bqLedger q (k.call c).1 cs).got⟩

/-- A call that leaves `q` as it was made (no create, flush or delete of it) and
sends it only whole blocks when its blocks are fixed. -/
def bqKeeps (q : Nat) (k : Kernel) : KCall → Bool
  | .bufQueueCreate q' _ _ _ | .fixBufQueueCreate q' _ _ _ | .bufQueueFlush q' | .bufQueueDel q' =>
    decide (q' ≠ q)
  | .bufQueueSend q' _ size =>
    decide (q' = q → (k.bufQueues q).ringbuf.type = .fix → size = (k.bufQueues q).maxMsgSize)
  | _ => true

/-- The calls of a run over `q`: admitted, passing the bytes they send, keeping `q`. -/
def bqOk (q : Nat) (k : Kernel) (c : KCall) : Bool :=
  k.sendOk c && bqKeeps q k c

theorem bqFlow_of_not_on {c : KCall} (hc : ¬c.OnBufQueue q) : bqFlow q k c = ⟨[], []⟩ := by
  cases c with
  | bufQueueSend q' msg size => simp [bqFlow, show q' ≠ q from hc]
  | bufQueueRecv q' ticks => simp [bqFlow, show q' ≠ q from hc]
  | _ => rfl

/-- A send on a live queue: refused, pushed behind what the ring holds, or handed
to a waiter of an empty ring. -/
theorem bqFlow_send (hw : k.WaitInv) (hb : k.BufOk q) {l : List (List UInt8)}
    (hlive : (k.bufQueues q).blkObj.objType = .bufQueue) (hh : (k.bufQueues q).Holds l)
    {msg : List UInt8} {size : Nat} (hlen : size ≤ msg.length)
    (hfix : (k.bufQueues q).ringbuf.type = .fix → size = (k.bufQueues q).maxMsgSize) :
    ((k.krhinoBufQueueSend q msg size).1.bufQueues q).blkObj.objType = .bufQueue ∧
      ∃ l', ((k.krhinoBufQueueSend q msg size).1.bufQueues q).Holds l' ∧
        l.map bqEntry ++ (bqFlow q k (.bufQueueSend q msg size)).sent =
          (bqFlow q k (.bufQueueSend q msg size)).got ++ l'.map bqEntry := by
  rcases k.krhinoBufQueueSend_cases q msg size with ⟨hne, hk'⟩ |
    ⟨hok, -, hpos, hl, hpush, hr, hc, hm, hobj, -⟩ | ⟨hok, w, ws, hl, hk'⟩
  · have hf : bqFlow q k (.bufQueueSend q msg size) = ⟨[], []⟩ := by simp [bqFlow, hne]
    rw [hk', hf]
    exact ⟨hlive, l, hh, by simp⟩
  · -- nobody waits: the message goes behind the others in the ring
    have hf : bqFlow q k (.bufQueueSend q msg size) = ⟨[(msg.take size, size)], []⟩ := by
      simp [bqFlow, hok, hl]
    have hst := hh.stored_eq hlen hfix
    refine ⟨hobj ▸ hlive, _, hh.push hpos hlen hpush hr hc hm, ?_⟩
    rw [hf, hst]
    simp [bqEntry, Nat.min_eq_left hlen]
  · -- a waiter: the ring is empty, and the waiter obtains the message
    have hwait := hw.waitsOn_of_mem (r := .bufQueue q) (t := w) (by simp [blkObj, hl])
    have hnil : l = [] := hh.empty_iff.mp ((hb hlive).2 w hwait)
    subst hnil
    have hs := bufKept_handover (q := q) (W := fun _ => False) (k := k) w msg size
    rw [← hk'] at hs
    have hf : bqFlow q k (.bufQueueSend q msg size) = ⟨[(msg.take size, size)], [(msg.take size, size)]⟩ := by
      simp [bqFlow, hok, hl, krhinoBufQueueSend_handover hl hok]
    rw [hf]
    exact ⟨hs.live ▸ hlive, [], hh.of_eq hs.ring hs.cur hs.maxMsg, by simp⟩

/-- A receive on a live queue: refused, popping the oldest message, or blocking
on an empty ring. -/
theorem bqFlow_recv (h : k.Inv) {l : List (List UInt8)}
    (hlive : (k.bufQueues q).blkObj.objType = .bufQueue) (hh : (k.bufQueues q).Holds l) (ticks : Nat) :
    ((k.krhinoBufQueueRecv q ticks).1.bufQueues q).blkObj.objType = .bufQueue ∧
      ∃ l', ((k.krhinoBufQueueRecv q ticks).1.bufQueues q).Holds l' ∧
        l.map bqEntry ++ (bqFlow q k (.bufQueueRecv q ticks)).sent =
          (bqFlow q k (.bufQueueRecv q ticks)).got ++ l'.map bqEntry := by
  rcases k.krhinoBufQueueRecv_cases q ticks with ⟨hne, -, hk'⟩ |
    ⟨hok, -, hne, hres, hr, hc, hm, hobj, -⟩ | ⟨hbl, -, -, hk'⟩
  · have hf : bqFlow q k (.bufQueueRecv q ticks) = ⟨[], []⟩ := by simp [bqFlow, hne]
    rw [hk', hf]
    exact ⟨hlive, l, hh, by simp⟩
  · cases l with
    | nil => exact absurd (hh.empty_iff.mpr rfl) (by simp [hne])
    | cons m l =>
      obtain ⟨hh', hpop⟩ := hh.pop hr hc hm
      have hf : bqFlow q k (.bufQueueRecv q ticks) = ⟨[], [(m, m.length)]⟩ := by
        simp [bqFlow, hok, hres, hpop]
      rw [hf]
      exact ⟨hobj ▸ hlive, l, hh', by simp [bqEntry]⟩
  · have hf : bqFlow q k (.bufQueueRecv q ticks) = ⟨[], []⟩ := by simp [bqFlow, hbl]
    have hs := (bufKept_kFrame q (· = k.activeTask)).pend h (r := .bufQueue q) (fun _ => rfl) ticks
    rw [← hk'] at hs
    rw [hf]
    exact ⟨hs.live ▸ hlive, l, hh.of_eq hs.ring hs.cur hs.maxMsg, by simp⟩

/-- The ledger law for one call. -/
theorem bqFlow_step (h : k.Inv) (hw : k.WaitInv) (hb : k.BufInv) {l : List (List UInt8)}
    (hlive : (k.bufQueues q).blkObj.objType = .bufQueue) (hh : (k.bufQueues q).Holds l)
    (c : KCall) (hc : bqOk q k c = true) :
    ((k.call c).1.bufQueues q).blkObj.objType = .bufQueue ∧ ∃ l', ((k.call c).1.bufQueues q).Holds l' ∧
      l.map bqEntry ++ (bqFlow q k c).sent = (bqFlow q k c).got ++ l'.map bqEntry := by
  simp only [bqOk, sendOk, Bool.and_eq_true] at hc
  obtain ⟨⟨-, hbytes⟩, hkeep⟩ := hc
  by_cases hq : c.OnBufQueue q
  · cases c with
    | bufQueueSend q' msg size =>
      subst hq
      simp only [bqKeeps, decide_eq_true_eq, forall_const] at hkeep
      exact bqFlow_send hw (hb q') hlive hh (by simpa [KCall.bytesOk] using hbytes) hkeep
    | bufQueueRecv q' ticks =>
      subst hq
      exact bqFlow_recv h hlive hh ticks
    | bufQueueCreate q' | fixBufQueueCreate q' | bufQueueFlush q' | bufQueueDel q' =>
      simp [bqKeeps, show q' = q from hq] at hkeep
    | _ => exact absurd hq id
  · -- every other call leaves the queue as it was
    have hs := bufKept_call (W := fun _ => False) h c hq
    rw [bqFlow_of_not_on hq]
    exact ⟨hs.live ▸ hlive, l, hh.of_eq hs.ring hs.cur hs.maxMsg, by simp⟩

/-- The ledger law over a run, by induction on its calls: what `q` held and what
was sent is what was received and what `q` holds. -/
theorem bqLedger_fifo (q : Nat) (cs : List KCall) :
    ∀ (k : Kernel) {l : List (List UInt8)}, k.Inv → k.WaitInv → k.BufInv →
      (k.bufQueues q).blkObj.objType = .bufQueue → (k.bufQueues q).Holds l →
      Machine.allowed call (bqOk q) k cs = true →
      ∃ l', ((Machine.exec call k cs).bufQueues q).Holds l' ∧
        l.map bqEntry ++ (bqLedger q k cs).sent = (bqLedger q k cs).got ++ l'.map bqEntry := by
  induction cs with
  | nil => exact fun k l _ _ _ _ hh _ => ⟨l, hh, by simp [bqLedger]⟩
  | cons c cs ih =>
    intro k l h hw hb hlive hh hok
    simp only [Machine.allowed, Bool.and_eq_true] at hok
    have hsend : k.sendOk c = true := by
      simp only [bqOk, Bool.and_eq_true] at hok
      exact hok.1.1
    obtain ⟨h', hw', hb'⟩ := sendOk_keeps h hw hb c hsend
    obtain ⟨hlive₁, l₁, hh₁, heq₁⟩ := bqFlow_step h hw hb hlive hh c hok.1
    obtain ⟨l', hh', heq'⟩ := ih (k.call c).1 h' hw' hb' hlive₁ hh₁ hok.2
    refine ⟨l', hh', ?_⟩
    simp only [bqLedger]
    calc l.map bqEntry ++ ((bqFlow q k c).sent ++ (bqLedger q (k.call c).1 cs).sent)
        = (bqFlow q k c).got ++ (l₁.map bqEntry ++ (bqLedger q (k.call c).1 cs).sent) := by
          rw [← List.append_assoc, heq₁, List.append_assoc]
      _ = (bqFlow q k c).got ++ (bqLedger q (k.call c).1 cs).got ++ l'.map bqEntry := by
          rw [heq', List.append_assoc]

/-- A live buffer queue of a run from `krhino_init` whose sends pass their bytes:
a receiver waits on it only while its ring is empty, its ring holds the messages
`cur_num` counts, and any further run that keeps it hands out, in order and
with their sizes, what it held and what was sent to it. -/
theorem bufQueue_fifo_delivery (hk : k.SendReachable) (q : Nat)
    (hlive : (k.bufQueues q).blkObj.objType = .bufQueue) :
    (∀ t, (k.tasks t).WaitsOn (.bufQueue q) → ringbufIsEmpty (k.bufQueues q).ringbuf = true) ∧
      ∃ l, (k.bufQueues q).Holds l ∧
        ∀ cs, Machine.allowed call (bqOk q) k cs = true →
          ∃ l', ((Machine.exec call k cs).bufQueues q).Holds l' ∧
            l.map bqEntry ++ (bqLedger q k cs).sent = (bqLedger q k cs).got ++ l'.map bqEntry := by
  obtain ⟨h, hw, hb⟩ := hk.bufInv
  obtain ⟨⟨l, hh⟩, hempty⟩ := hb q hlive
  exact ⟨hempty, l, hh, fun cs hok => bqLedger_fifo q cs k h hw hb hlive hh hok⟩

/-- Task `1` makes a dynamic queue of 16 bytes for messages of at most 4. -/
def dynQueueMade : List KCall :=
  [.taskCreate 1 20 0 true, .bufQueueCreate 0 (fun _ => 0) 16 4]

theorem bufQueue_fifo_delivery_dynQueueMade :
    (Machine.exec call krhinoInit dynQueueMade).SendReachable ∧
      ((Machine.exec call krhinoInit dynQueueMade).bufQueues 0).blkObj.objType = .bufQueue ∧
      ((∀ t, ((Machine.exec call krhinoInit dynQueueMade).tasks t).WaitsOn (.bufQueue 0) →
          ringbufIsEmpty ((Machine.exec call krhinoInit dynQueueMade).bufQueues 0).ringbuf = true) ∧
        ∃ l, ((Machine.exec call krhinoInit dynQueueMade).bufQueues 0).Holds l ∧
          ∀ cs, Machine.allowed call (bqOk 0) (Machine.exec call krhinoInit dynQueueMade) cs = true →
            ∃ l', ((Machine.exec call (Machine.exec call krhinoInit dynQueueMade) cs).bufQueues 0).Holds l' ∧
              l.map bqEntry ++ (bqLedger 0 (Machine.exec call krhinoInit dynQueueMade) cs).sent =
                (bqLedger 0 (Machine.exec call krhinoInit dynQueueMade) cs).got ++ l'.map bqEntry) :=
  have hk : (Machine.exec call krhinoInit dynQueueMade).SendReachable := ⟨dynQueueMade, by decide, rfl⟩
  have hlive : ((Machine.exec call krhinoInit dynQueueMade).bufQueues 0).blkObj.objType = .bufQueue := by
    decide
  ⟨hk, hlive, bufQueue_fifo_delivery hk 0 hlive⟩

/-- Task `1` makes a queue of two fixed blocks of 4 bytes. -/
def fixQueueMade : List KCall :=
  [.taskCreate 1 20 0 true, .fixBufQueueCreate 0 (fun _ => 0) 4 2]

/-- A fixed-block queue copies and reports whole blocks. On a live queue of fixed blocks
of `max_msg_size` bytes, with no message and no receiver waiting, a send of `size` bytes
goes into the ring, and the receive that follows returns `RHINO_SUCCESS` with `*size` the
block size `max_msg_size`, whatever `size` was sent. -/
theorem fixBufQueue_recv_reports_block {q : Nat} (msg : List UInt8) {size : Nat} (ticks : Nat)
    (hlive : (k.bufQueues q).blkObj.objType = .bufQueue) (hfix : (k.bufQueues q).ringbuf.type = .fix)
    (hblk : (k.bufQueues q).ringbuf.blkSize = (k.bufQueues q).maxMsgSize)
    (hempty : (k.bufQueues q).ringbuf.freesize = (k.bufQueues q).ringbuf.bufEnd)
    (hroom : (k.bufQueues q).maxMsgSize ≤ (k.bufQueues q).ringbuf.bufEnd)
    (hnw : (k.bufQueues q).blkObj.blkList = []) (hint : k.intrptNested = 0)
    (hpos : 0 < size) (hmax : size ≤ (k.bufQueues q).maxMsgSize) :
    (k.krhinoBufQueueSend q msg size).2 = .success ∧
      ((k.krhinoBufQueueSend q msg size).1.krhinoBufQueueRecv q ticks).2.1 = .ret .success ∧
      ((k.krhinoBufQueueSend q msg size).1.krhinoBufQueueRecv q ticks).2.2.2 = (k.bufQueues q).maxMsgSize := by
  -- the ring has room for a block, so the push takes one
  have hfull : ringbufIsFull (k.bufQueues q).ringbuf = false := by
    simp [ringbufIsFull, hfix, hempty, hblk, hroom]
  have hsend : k.krhinoBufQueueSend q msg size =
      (k.setBufQueue q fun bq =>
        { bq with
          ringbuf := (ringbufPush (k.bufQueues q).ringbuf msg size).1, curNum := (k.bufQueues q).curNum + 1,
          peakNum := if bq.peakNum < (k.bufQueues q).curNum + 1 then (k.bufQueues q).curNum + 1 else bq.peakNum,
          minFreeBufSize := if bq.minFreeBufSize > (ringbufPush (k.bufQueues q).ringbuf msg size).1.freesize
            then (ringbufPush (k.bufQueues q).ringbuf msg size).1.freesize else bq.minFreeBufSize },
        .success) := by
    unfold krhinoBufQueueSend bufQueueSend
    simp [hlive, Nat.not_lt.mpr hmax, Nat.pos_iff_ne_zero.mp hpos, hnw, ringbufPush, hfull, hfix]
  -- the pop then finds the block, and reports its size
  have hring : ((k.krhinoBufQueueSend q msg size).1.bufQueues q).ringbuf =
      (ringbufPush (k.bufQueues q).ringbuf msg size).1 := by
    rw [hsend]
    simp
  have hnonempty : ringbufIsEmpty ((k.krhinoBufQueueSend q msg size).1.bufQueues q).ringbuf = false := by
    rw [hring]
    simp [ringbufIsEmpty, ringbufPush, hfull, hfix, hempty, hblk]
    omega
  have hlive' : ((k.krhinoBufQueueSend q msg size).1.bufQueues q).blkObj.objType = .bufQueue := by
    rw [hsend]
    simpa using hlive
  have hint' : (k.krhinoBufQueueSend q msg size).1.intrptNested = 0 := by
    rw [hsend]
    exact hint
  have hrecv := (k.krhinoBufQueueSend q msg size).1.krhinoBufQueueRecv_cases q ticks
  rcases hrecv with ⟨hne, -, hk⟩ | ⟨hok, -, -, hdata, -⟩ | ⟨-, -, hemp, -⟩
  · -- a refusal is none of the cases the checks leave
    exfalso
    unfold krhinoBufQueueRecv at hne
    simp [hint', hlive', hnonempty] at hne
  · have hne : (k.bufQueues q).ringbuf.bufEnd - (k.bufQueues q).maxMsgSize ≠ (k.bufQueues q).ringbuf.bufEnd := by
      omega
    refine ⟨by rw [hsend], hok, ?_⟩
    rw [hdata, hring]
    simp [ringbufPop, ringbufIsEmpty, ringbufPush, hfull, hfix, hempty, hblk, hne]
  · rw [hnonempty] at hemp
    exact absurd hemp (by decide)

/-- A send of 2 bytes to a queue of two 4-byte blocks goes through the ring, and the
receive reports a whole block of 4. -/
theorem fixBufQueue_recv_reports_block_fixQueueMade :
    let k := Machine.exec call krhinoInit fixQueueMade
    Machine.allowed call sendOk krhinoInit fixQueueMade = true ∧
      ((k.bufQueues 0).blkObj.objType = .bufQueue ∧ (k.bufQueues 0).ringbuf.type = .fix ∧
        (k.bufQueues 0).ringbuf.blkSize = (k.bufQueues 0).maxMsgSize ∧
        (k.bufQueues 0).ringbuf.freesize = (k.bufQueues 0).ringbuf.bufEnd ∧
        (k.bufQueues 0).maxMsgSize ≤ (k.bufQueues 0).ringbuf.bufEnd ∧
        (k.bufQueues 0).blkObj.blkList = [] ∧ k.intrptNested = 0 ∧ 0 < 2 ∧ 2 ≤ (k.bufQueues 0).maxMsgSize) ∧
      (k.bufQueues 0).maxMsgSize = 4 ∧
      ((k.krhinoBufQueueSend 0 [7, 8] 2).2 = .success ∧
        ((k.krhinoBufQueueSend 0 [7, 8] 2).1.krhinoBufQueueRecv 0 rhinoNoWait).2.1 = .ret .success ∧
        ((k.krhinoBufQueueSend 0 [7, 8] 2).1.krhinoBufQueueRecv 0 rhinoNoWait).2.2.2 = (k.bufQueues 0).maxMsgSize) :=
  ⟨by decide, ⟨by decide, by decide, by decide, by decide, by decide, by decide, by decide, by decide, by decide⟩,
    by decide,
    fixBufQueue_recv_reports_block [7, 8] rhinoNoWait (by decide) (by decide) (by decide) (by decide) (by decide)
      (by decide) (by decide) (by decide) (by decide)⟩

end Kernel

end Rhino
