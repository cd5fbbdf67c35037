import AliosThings.Rhino.WaitRun
import AliosThings.Rhino.RingbufFix

/-!
# What the waiters of semaphores, queues and events wait for

A task blocks on a semaphore only when no unit is left, on a queue only when it
holds no message, and on an event only when the flags do not satisfy its wait; a
give, a send or a set that finds waiters hands them what it would store. So
between two calls no task waits on something its object holds, and a queue that
has not been deleted stores exactly `cur_num` pointers in its ring (`ObjInv`).

Every step except those that store into a semaphore or raise event flags lets no
task start waiting in vain (`StockKept`): it adds no unit, no message it does not
hand over and no flag, and a task it blocks is one whose object holds nothing for
it. A semaphore's units balance over every run: the count it had and what the
gives brought is the count it has, what takes got at once, and what gives handed
to a waiter.
-/

namespace Rhino

/-- The task waits on `r`. -/
def KTask.WaitsOn (task : KTask) (r : ObjRef) : Prop :=
  task.IsPend ∧ task.blkObj = some r

/-- A queue's ring: `msg_num` blocks of `sizeof(void *)` bytes, storing `cur_num`
pointers. -/
structure KQueue.RingOk (mq : KQueue) : Prop where
  blk : mq.ringbuf.blkSize = ptrSize
  len : mq.ringbuf.bufEnd = mq.size * ptrSize
  cur_le : mq.curNum ≤ mq.size
  stored : ∃ l, RingbufFixInv mq.ringbuf l ∧ l.length = mq.curNum

theorem KQueue.RingOk.of_eq {a b : KQueue} (h : a.RingOk) (hr : b.ringbuf = a.ringbuf)
    (hs : b.size = a.size) (hc : b.curNum = a.curNum) : b.RingOk := by
  obtain ⟨hblk, hlen, hle, l, hl, hn⟩ := h
  exact ⟨hr ▸ hblk, hr ▸ hs ▸ hlen, hs ▸ hc ▸ hle, l, hr ▸ hl, hc ▸ hn⟩

/-- The ring of a queue that has not been deleted. -/
def KQueue.LiveOk (mq : KQueue) : Prop :=
  mq.blkObj.objType = .queue → mq.RingOk

/-- The pointer bytes a queue stores fill one block. -/
theorem length_ptrBytes (p : Nat) : (ptrBytes p).length = ptrSize := by
  simp [ptrBytes]

/-- A fresh queue's ring of `msg_num` empty blocks. -/
theorem KQueue.RingOk.create (start : Nat → UInt8) {msgNum : Nat} (hm : 0 < msgNum) :
    KQueue.RingOk
      { blkObj := ⟨[], .pri, .queue⟩, ringbuf := ringbufInit start (msgNum * ptrSize) .fix ptrSize,
        size := msgNum, curNum := 0, peakNum := 0 } where
  blk := rfl
  len := rfl
  cur_le := Nat.zero_le _
  stored := ⟨[], ringbufFixInv_init start (by decide) hm, rfl⟩

/-- `msg_send` into a queue that is not full: the ring holds one pointer more. -/
theorem KQueue.RingOk.push {mq : KQueue} (h : mq.RingOk) (hlt : mq.curNum < mq.size) (p peak : Nat) :
    KQueue.RingOk
      { mq with
        curNum := mq.curNum + 1, peakNum := peak,
        ringbuf := (ringbufPush mq.ringbuf (ptrBytes p) ptrSize).1 } := by
  obtain ⟨hblk, hlen, _, l, hl, hn⟩ := h
  have hroom : mq.ringbuf.blkSize ≤ mq.ringbuf.freesize := by
    have hfree := hl.free
    rw [hblk, hlen, hn] at hfree
    have : ptrSize * mq.curNum + ptrSize ≤ mq.size * ptrSize := by
      rw [Nat.mul_comm ptrSize]
      exact (Nat.succ_mul _ _).symm ▸ Nat.mul_le_mul_right _ hlt
    rw [hblk]
    omega
  obtain ⟨rb', hpush, hend, hblk', hI⟩ :=
    ringbufPush_fix_ok hl ((length_ptrBytes p).trans hblk.symm) hroom
  rw [length_ptrBytes] at hpush
  refine ⟨?_, ?_, hlt, l ++ [ptrBytes p], ?_, by simp [hn]⟩
  · simp only [hpush]
    rw [hblk', hblk]
  · simp only [hpush]
    rw [hend, hlen]
  · simpa only [hpush] using hI

/-- `ringbuf_pop` from a queue that holds a pointer: the ring holds one fewer. -/
theorem KQueue.RingOk.pop {mq : KQueue} (h : mq.RingOk) (hpos : 0 < mq.curNum) :
    KQueue.RingOk { mq with ringbuf := (ringbufPop mq.ringbuf).1, curNum := mq.curNum - 1 } := by
  obtain ⟨hblk, hlen, hle, l, hl, hn⟩ := h
  cases l with
  | nil => simp at hn; omega
  | cons blk rest =>
    obtain ⟨rb', hpop, hend, hblk', hI⟩ := ringbufPop_fix_ok hl
    refine ⟨?_, ?_, by simp only; omega, rest, ?_, by simp at hn; simp only; omega⟩
    · simp only [hpop]
      rw [hblk', hblk]
    · simp only [hpop]
      rw [hend, hlen]
    · simpa only [hpop] using hI

/-- `ringbuf_reset` with `cur_num` back at `0`. -/
theorem KQueue.RingOk.reset {mq : KQueue} (h : mq.RingOk) :
    KQueue.RingOk { mq with curNum := 0, ringbuf := ringbufReset mq.ringbuf } := by
  obtain ⟨hblk, hlen, _, l, hl, _⟩ := h
  exact ⟨hblk, hlen, Nat.zero_le _, [], hl.reset, rfl⟩

/-- Flags that satisfy a wait still do with more flags set (`f'` among `f`). -/
theorem eventReady_mono {f f' w : UInt32} {opt : Nat} (hle : f' &&& f = f')
    (h : eventReady f' w opt = true) : eventReady f w opt = true := by
  unfold eventReady at h ⊢
  split
  · rename_i hand
    rw [if_pos hand, decide_eq_true_eq] at h
    rw [decide_eq_true_eq]
    calc f &&& w = f &&& (f' &&& w) := by rw [h]
      _ = (f' &&& f) &&& w := by rw [← UInt32.and_assoc, UInt32.and_comm f f']
      _ = w := by rw [hle, h]
  · rename_i hand
    rw [if_neg hand, decide_eq_true_eq] at h
    rw [decide_eq_true_eq]
    intro h0
    apply h
    calc f' &&& w = (f' &&& f) &&& w := by rw [hle]
      _ = f' &&& (f &&& w) := UInt32.and_assoc _ _ _
      _ = 0 := by rw [h0, UInt32.and_zero]

/-- Clearing flags leaves a subset of them. -/
theorem and_and_self (f m : UInt32) : f &&& m &&& f = f &&& m := by
  rw [UInt32.and_assoc, UInt32.and_comm m f, ← UInt32.and_assoc, UInt32.and_self]

namespace Kernel

variable {k k' k'' : Kernel}

/-- What `r` stores answers task `t`: a unit of a semaphore, a message of a queue,
or flags that satisfy the wait of `t` on an event. -/
def Available (k : Kernel) (t : Nat) : ObjRef → Prop
  | .sem s => 0 < (k.sems s).count
  | .queue q => 0 < (k.queues q).curNum
  | .event e => eventReady (k.events e).flags (k.tasks t).pendFlags (k.tasks t).pendOption = true
  | .mutex _ | .bufQueue _ => False

/-- No task waits on what its object stores, and every queue that has not been
deleted keeps its pointers in its ring. -/
structure ObjInv (k : Kernel) : Prop where
  waiting : ∀ t r, (k.tasks t).WaitsOn r → ¬k.Available t r
  ring : ∀ q, (k.queues q).LiveOk

@[simp] theorem setTask_sems (t : Nat) (f : KTask → KTask) : (k.setTask t f).sems = k.sems := rfl
@[simp] theorem setTask_queues (t : Nat) (f : KTask → KTask) : (k.setTask t f).queues = k.queues := rfl
@[simp] theorem setTask_events (t : Nat) (f : KTask → KTask) : (k.setTask t f).events = k.events := rfl
@[simp] theorem coreSched_sems : k.coreSched.sems = k.sems := by
  obtain ⟨a, p, h⟩ := k.coreSched_eq
  rw [h]

@[simp] theorem setSem_tasks (s : Nat) (f : KSem → KSem) : (k.setSem s f).tasks = k.tasks := rfl
@[simp] theorem setSem_queues (s : Nat) (f : KSem → KSem) : (k.setSem s f).queues = k.queues := rfl
@[simp] theorem setSem_events (s : Nat) (f : KSem → KSem) : (k.setSem s f).events = k.events := rfl
@[simp] theorem setQueue_tasks (q : Nat) (f : KQueue → KQueue) : (k.setQueue q f).tasks = k.tasks := rfl
@[simp] theorem setQueue_sems (q : Nat) (f : KQueue → KQueue) : (k.setQueue q f).sems = k.sems := rfl
@[simp] theorem setQueue_events (q : Nat) (f : KQueue → KQueue) : (k.setQueue q f).events = k.events := rfl
@[simp] theorem setEvent_tasks (e : Nat) (f : KEvent → KEvent) : (k.setEvent e f).tasks = k.tasks := rfl
@[simp] theorem setEvent_sems (e : Nat) (f : KEvent → KEvent) : (k.setEvent e f).sems = k.sems := rfl
@[simp] theorem setEvent_queues (e : Nat) (f : KEvent → KEvent) : (k.setEvent e f).queues = k.queues := rfl

@[simp] theorem setSem_sems (s : Nat) (f : KSem → KSem) (u : Nat) :
    (k.setSem s f).sems u = if u = s then f (k.sems s) else k.sems u := rfl

@[simp] theorem setQueue_queues (q : Nat) (f : KQueue → KQueue) (u : Nat) :
    (k.setQueue q f).queues u = if u = q then f (k.queues q) else k.queues u := rfl

@[simp] theorem setEvent_events (e : Nat) (f : KEvent → KEvent) (u : Nat) :
    (k.setEvent e f).events u = if u = e then f (k.events e) else k.events u := rfl

/-- `Available t r` reads the counts, the queues' `cur_num`, the flags and what `t`
waits for. -/
theorem available_iff {t : Nat} (hfl : (k'.tasks t).pendFlags = (k.tasks t).pendFlags)
    (hop : (k'.tasks t).pendOption = (k.tasks t).pendOption)
    (hcount : ∀ s, (k'.sems s).count = (k.sems s).count)
    (hcur : ∀ q, (k'.queues q).curNum = (k.queues q).curNum)
    (hflags : ∀ e, (k'.events e).flags = (k.events e).flags) (r : ObjRef) :
    k'.Available t r ↔ k.Available t r := by
  cases r <;> simp [Available, hfl, hop, hcount, hcur, hflags]

/-! ### Steps that store nothing -/

/-- The step from `k` to `k'` makes nothing available to a waiter: every task of
`k'` that waits on what its object stores did so in `k`. It adds no semaphore
unit, only clears event flags, creates no queue and keeps every live queue's
ring. -/
structure StockKept (k k' : Kernel) : Prop where
  waits : ∀ t r, (k'.tasks t).WaitsOn r → k'.Available t r → (k.tasks t).WaitsOn r ∧ k.Available t r
  count : ∀ s, (k'.sems s).count = (k.sems s).count
  flags : ∀ e, (k'.events e).flags &&& (k.events e).flags = (k'.events e).flags
  alive : ∀ q, (k'.queues q).blkObj.objType = .queue → (k.queues q).blkObj.objType = .queue
  ring : ∀ q, (k.queues q).LiveOk → (k'.queues q).LiveOk

theorem StockKept.refl (k : Kernel) : StockKept k k :=
  ⟨fun _ _ hw ha => ⟨hw, ha⟩, fun _ => rfl, fun _ => UInt32.and_self, fun _ h => h, fun _ h => h⟩

theorem StockKept.trans (h₁ : StockKept k k') (h₂ : StockKept k' k'') : StockKept k k'' where
  waits t r hw ha :=
    let ⟨hw', ha'⟩ := h₂.waits t r hw ha
    h₁.waits t r hw' ha'
  count s := (h₂.count s).trans (h₁.count s)
  flags e := by rw [← h₂.flags e, UInt32.and_assoc, h₁.flags e]
  alive q hq := h₁.alive q (h₂.alive q hq)
  ring q hq := h₂.ring q (h₁.ring q hq)

theorem ObjInv.of_stockKept (h : k.ObjInv) (hs : StockKept k k') : k'.ObjInv where
  waiting t r hw ha :=
    let ⟨hw', ha'⟩ := hs.waits t r hw ha
    h.waiting t r hw' ha'
  ring q := hs.ring q (h.ring q)

/-- A step that leaves the tasks, the counts, the queues' `cur_num` and the flags,
and keeps every live queue's ring. -/
theorem stockKept_of_stock (htasks : ∀ t, k'.tasks t = k.tasks t)
    (hcount : ∀ s, (k'.sems s).count = (k.sems s).count)
    (hcur : ∀ q, (k'.queues q).curNum = (k.queues q).curNum)
    (hflags : ∀ e, (k'.events e).flags = (k.events e).flags)
    (halive : ∀ q, (k'.queues q).blkObj.objType = (k.queues q).blkObj.objType)
    (hring : ∀ q, (k.queues q).LiveOk → (k'.queues q).LiveOk) : StockKept k k' where
  waits t r hw ha := by
    rw [htasks] at hw
    refine ⟨hw, (available_iff ?_ ?_ hcount hcur hflags r).mp ha⟩ <;> rw [htasks]
  count := hcount
  flags e := by rw [hflags, UInt32.and_self]
  alive q hq := by rwa [← halive]
  ring := hring

theorem stockKept_of_objects (htasks : k'.tasks = k.tasks) (hsems : k'.sems = k.sems)
    (hqueues : k'.queues = k.queues) (hevents : k'.events = k.events) : StockKept k k' :=
  stockKept_of_stock (fun _ => by rw [htasks]) (fun _ => by rw [hsems]) (fun _ => by rw [hqueues])
    (fun _ => by rw [hevents]) (fun _ => by rw [hqueues]) fun _ h => by rw [hqueues]; exact h

/-- A task is rewritten so that a wait it has afterwards on what its object
stores is one it had. -/
theorem stockKept_setTask_of {t : Nat} {f : KTask → KTask}
    (hf : ∀ r, (f (k.tasks t)).WaitsOn r → (k.setTask t f).Available t r →
      (k.tasks t).WaitsOn r ∧ k.Available t r) : StockKept k (k.setTask t f) where
  waits u r hw ha := by
    by_cases hu : u = t
    · subst hu
      simp only [setTask_tasks, if_true] at hw
      exact hf r hw ha
    · simp only [setTask_tasks, if_neg hu] at hw
      refine ⟨hw, (@available_iff k (k.setTask t f) u ?_ ?_ (fun _ => rfl) (fun _ => rfl) (fun _ => rfl)
        r).mp ha⟩ <;> simp [hu]
  count _ := rfl
  flags _ := UInt32.and_self
  alive _ hq := hq
  ring _ hq := hq

/-- A task rewritten without a new wait and without changing what it waits for. -/
theorem stockKept_setTask {t : Nat} {f : KTask → KTask}
    (hw : ∀ r, (f (k.tasks t)).WaitsOn r → (k.tasks t).WaitsOn r)
    (hfl : (f (k.tasks t)).pendFlags = (k.tasks t).pendFlags)
    (hop : (f (k.tasks t)).pendOption = (k.tasks t).pendOption) : StockKept k (k.setTask t f) :=
  stockKept_setTask_of fun r hw' ha =>
    ⟨hw r hw', (@available_iff k (k.setTask t f) t (by simp [hfl]) (by simp [hop]) (fun _ => rfl)
      (fun _ => rfl) (fun _ => rfl) r).mp ha⟩

/-- A task rewritten into one that does not wait. -/
theorem stockKept_setTask_quiet {t : Nat} {f : KTask → KTask} (hp : ¬(f (k.tasks t)).IsPend) :
    StockKept k (k.setTask t f) :=
  stockKept_setTask_of fun _ hw _ => absurd hw.1 hp

@[simp] theorem setBlkList_count (r : ObjRef) (l : List Nat) (s : Nat) :
    ((k.setBlkList r l).sems s).count = (k.sems s).count := by
  cases r <;> simp only [setBlkList, setSem, setMutex, setQueue, setBufQueue, setEvent]
  all_goals split <;> simp_all

@[simp] theorem setBlkList_curNum (r : ObjRef) (l : List Nat) (q : Nat) :
    ((k.setBlkList r l).queues q).curNum = (k.queues q).curNum := by
  cases r <;> simp only [setBlkList, setSem, setMutex, setQueue, setBufQueue, setEvent]
  all_goals split <;> simp_all

@[simp] theorem setBlkList_flags (r : ObjRef) (l : List Nat) (e : Nat) :
    ((k.setBlkList r l).events e).flags = (k.events e).flags := by
  cases r <;> simp only [setBlkList, setSem, setMutex, setQueue, setBufQueue, setEvent]
  all_goals split <;> simp_all

@[simp] theorem setBlkList_objType (r : ObjRef) (l : List Nat) (q : Nat) :
    ((k.setBlkList r l).queues q).blkObj.objType = (k.queues q).blkObj.objType := by
  cases r <;> simp only [setBlkList, setSem, setMutex, setQueue, setBufQueue, setEvent]
  all_goals split <;> simp_all

theorem setBlkList_liveOk (r : ObjRef) (l : List Nat) (q : Nat) :
    ((k.setBlkList r l).queues q).LiveOk ↔ (k.queues q).LiveOk := by
  cases r <;> simp only [setBlkList, setSem, setMutex, setQueue, setBufQueue, setEvent]
  all_goals split <;> (try subst_vars) <;>
    exact ⟨fun h ho => (h ho).of_eq rfl rfl rfl, fun h ho => (h ho).of_eq rfl rfl rfl⟩

theorem stockKept_setBlkList (r : ObjRef) (l : List Nat) : StockKept k (k.setBlkList r l) :=
  stockKept_of_stock (fun _ => by rw [setBlkList_tasks]) (setBlkList_count r l) (setBlkList_curNum r l)
    (setBlkList_flags r l) (setBlkList_objType r l) fun q => (setBlkList_liveOk r l q).mpr

theorem stockKept_readyListAdd (t : Nat) : StockKept k (k.readyListAdd t) :=
  stockKept_of_objects rfl rfl rfl rfl

theorem stockKept_readyListAddTail (t : Nat) : StockKept k (k.readyListAddTail t) :=
  stockKept_of_objects rfl rfl rfl rfl

theorem stockKept_readyListAddHead (t : Nat) : StockKept k (k.readyListAddHead t) :=
  stockKept_of_objects rfl rfl rfl rfl

theorem stockKept_readyListRm (t : Nat) : StockKept k (k.readyListRm t) :=
  stockKept_of_objects rfl rfl rfl rfl

theorem stockKept_readyListHeadToTail (t : Nat) : StockKept k (k.readyListHeadToTail t) :=
  stockKept_of_objects rfl rfl rfl rfl

theorem stockKept_setMutex (m : Nat) (f : KMutex → KMutex) : StockKept k (k.setMutex m f) :=
  stockKept_of_objects rfl rfl rfl rfl

theorem stockKept_setBufQueue (q : Nat) (f : KBufQueue → KBufQueue) : StockKept k (k.setBufQueue q f) :=
  stockKept_of_objects rfl rfl rfl rfl

theorem stockKept_coreSched : StockKept k k.coreSched := by
  obtain ⟨a, p, h⟩ := k.coreSched_eq
  rw [h]
  exact stockKept_of_objects rfl rfl rfl rfl

/-- An event whose flags only lose bits. -/
theorem stockKept_setEvent {e : Nat} {f : KEvent → KEvent}
    (hf : (f (k.events e)).flags &&& (k.events e).flags = (f (k.events e)).flags) :
    StockKept k (k.setEvent e f) where
  waits t r hw ha := by
    refine ⟨hw, ?_⟩
    cases r with
    | event e' =>
      by_cases he : e' = e
      · subst he
        simp only [Available, setEvent, if_true] at ha ⊢
        exact eventReady_mono hf ha
      · simpa [Available, setEvent, he] using ha
    | sem _ | queue _ => simpa [Available, setEvent] using ha
    | mutex _ | bufQueue _ => exact ha.elim
  count _ := rfl
  flags e' := by
    by_cases he : e' = e
    · subst he
      simpa [setEvent] using hf
    · simp [setEvent, he, UInt32.and_self]
  alive _ hq := hq
  ring _ hq := hq

theorem stockKept_setEvent_and (e : Nat) (m : UInt32) :
    StockKept k (k.setEvent e fun ev => { ev with flags := ev.flags &&& m }) :=
  stockKept_setEvent (and_and_self _ m)

/-- A semaphore keeps its count. -/
theorem stockKept_setSem {s : Nat} {f : KSem → KSem} (hf : (f (k.sems s)).count = (k.sems s).count) :
    StockKept k (k.setSem s f) :=
  stockKept_of_stock (fun _ => rfl) (fun s' => by by_cases hs : s' = s <;> simp [setSem, hs, hf])
    (fun _ => rfl) (fun _ => rfl) (fun _ => rfl) fun _ hq => hq

/-- A queue that gets a message only when nobody waits on it, stays deleted if it
was, and keeps its ring if it was live. -/
theorem stockKept_setQueue {q : Nat} {f : KQueue → KQueue}
    (hc : ∀ t, (k.tasks t).WaitsOn (.queue q) → 0 < (f (k.queues q)).curNum → 0 < (k.queues q).curNum)
    (ha : (f (k.queues q)).blkObj.objType = .queue → (k.queues q).blkObj.objType = .queue)
    (hl : (k.queues q).LiveOk → (f (k.queues q)).LiveOk) : StockKept k (k.setQueue q f) where
  waits t r hw hav := by
    refine ⟨hw, ?_⟩
    cases r with
    | queue q' =>
      by_cases hq : q' = q
      · subst hq
        simp only [Available, setQueue, if_true] at hav ⊢
        exact hc t hw hav
      · simpa [Available, setQueue, hq] using hav
    | sem _ | event _ => simpa [Available, setQueue] using hav
    | mutex _ | bufQueue _ => exact hav.elim
  count _ := rfl
  flags _ := UInt32.and_self
  alive q' hq' := by
    by_cases hq : q' = q
    · subst hq
      simpa [setQueue] using ha (by simpa [setQueue] using hq')
    · simpa [setQueue, hq] using hq'
  ring q' hq' := by
    by_cases hq : q' = q
    · subst hq
      simpa [setQueue] using hl hq'
    · simpa [setQueue, hq] using hq'

/-! ### The list operations -/

theorem stockKept_tickListRm (t : Nat) : StockKept k (k.tickListRm t) := by
  unfold Kernel.tickListRm
  split
  · dsimp only
    refine StockKept.trans ?_ (stockKept_setTask (fun _ hw => hw) rfl rfl)
    exact stockKept_of_objects rfl rfl rfl rfl
  · exact StockKept.refl k

theorem stockKept_tickListInsert (t time : Nat) : StockKept k (k.tickListInsert t time) := by
  unfold Kernel.tickListInsert
  split
  · dsimp only
    have h₁ : StockKept k (k.setTask t fun task =>
        { task with tickMatch := tickWrap (k.tickCount + time), tickRemain := time }) :=
      stockKept_setTask (fun _ hw => hw) rfl rfl
    refine (h₁.trans ?_).trans (stockKept_setTask (fun _ hw => hw) rfl rfl)
    exact stockKept_of_objects rfl rfl rfl rfl
  · exact StockKept.refl k

theorem stockKept_blkListRm (t : Nat) : StockKept k (k.blkListRm t) := by
  unfold Kernel.blkListRm
  split
  · exact stockKept_setBlkList _ _
  · exact StockKept.refl k

theorem stockKept_pendListReorder (t : Nat) : StockKept k (k.pendListReorder t) := by
  unfold Kernel.pendListReorder
  split
  · split
    · exact stockKept_setBlkList _ _
    · exact StockKept.refl k
  · exact StockKept.refl k

/-- A waiter leaves its list ready or suspended, so it waits no more. -/
theorem stockKept_pendTaskLeave (t : Nat) : StockKept k (k.pendTaskLeave t) := by
  unfold Kernel.pendTaskLeave
  split
  · exact ((stockKept_blkListRm t).trans (stockKept_readyListAdd t)).trans
      (stockKept_setTask_quiet (by simp [KTask.IsPend]))
  · exact (stockKept_blkListRm t).trans (stockKept_setTask_quiet (by simp [KTask.IsPend]))
  · exact StockKept.refl k

theorem stockKept_pendTaskEnd (t : Nat) (st : BlkState) : StockKept k (k.pendTaskEnd t st) :=
  ((stockKept_pendTaskLeave t).trans (stockKept_tickListRm t)).trans
    (stockKept_setTask_of fun _ hw _ => absurd hw.2 (by simp))

theorem stockKept_pendTaskRmAll (l : List Nat) : StockKept k (k.pendTaskRmAll l) := by
  induction l generalizing k with
  | nil => exact StockKept.refl k
  | cons t l ih => exact (stockKept_pendTaskEnd t .del).trans ih

theorem stockKept_pendTaskWakeupAll (l : List Nat) : StockKept k (k.pendTaskWakeupAll l) := by
  induction l generalizing k with
  | nil => exact StockKept.refl k
  | cons t l ih => exact (stockKept_pendTaskEnd t .finish).trans ih

theorem stockKept_taskMsgRecv (t p : Nat) : StockKept k (k.taskMsgRecv t p) :=
  (stockKept_setTask (fun _ hw => hw) rfl rfl).trans (stockKept_pendTaskEnd t .finish)

theorem stockKept_taskMsgRecvAll (p : Nat) (l : List Nat) : StockKept k (k.taskMsgRecvAll p l) := by
  induction l generalizing k with
  | nil => exact StockKept.refl k
  | cons t l ih => exact (stockKept_taskMsgRecv t p).trans ih

/-- `pend_to_blk_obj` of a task that does not wait, on an object that holds
nothing for it. -/
theorem stockKept_pendToBlkObj {t : Nat} {r : ObjRef} (hp : ¬(k.tasks t).IsPend)
    (hr : ¬k.Available t r) (timeout : Nat) : StockKept k (k.pendToBlkObj r t timeout) := by
  unfold Kernel.pendToBlkObj
  dsimp only
  set k₁ := k.setTask t fun task => { task with blkObj := some r, pendTimeout := timeout }
  set k₂ := if timeout ≠ rhinoWaitForever then k₁.tickListInsert t timeout else k₁ with hk₂
  have h₁ : StockKept k k₁ := stockKept_setTask_quiet hp
  have h₂ : StockKept k₁ k₂ := by
    rw [hk₂]
    split
    · exact stockKept_tickListInsert t timeout
    · exact StockKept.refl k₁
  -- the task now points at `r`, and waits for what it waited for
  have hb₂ : (k₂.tasks t).blkObj = some r ∧ (k₂.tasks t).pendFlags = (k.tasks t).pendFlags ∧
      (k₂.tasks t).pendOption = (k.tasks t).pendOption := by
    rw [hk₂]
    split
    · unfold Kernel.tickListInsert
      split <;> simp [k₁]
    · simp [k₁]
  have hobj₂ : (∀ s, (k₂.sems s).count = (k.sems s).count) ∧
      (∀ q, (k₂.queues q).curNum = (k.queues q).curNum) ∧ ∀ e, (k₂.events e).flags = (k.events e).flags := by
    rw [hk₂]
    split
    · unfold Kernel.tickListInsert
      split <;> simp [k₁]
    · simp [k₁]
  have h₃ : StockKept k₂ (k₂.setTask t fun task => { task with taskState := .pend }) := by
    refine stockKept_setTask_of fun r' hw ha => absurd ?_ hr
    have hr' : r' = r := Option.some_injective _ (hw.2.symm.trans hb₂.1)
    rw [hr'] at ha
    exact (@available_iff k (k₂.setTask t fun task => { task with taskState := .pend }) t
      (by simp [hb₂.2.1]) (by simp [hb₂.2.2]) (by simpa using hobj₂.1) (by simpa using hobj₂.2.1)
      (by simpa using hobj₂.2.2) r).mp ha
  have h₄ := ((h₁.trans h₂).trans h₃).trans (stockKept_readyListRm t)
  split
  · exact (h₄.trans (stockKept_setBlkList _ _)).trans (stockKept_of_objects rfl rfl rfl rfl)
  · exact (h₄.trans (stockKept_setBlkList _ _)).trans (stockKept_of_objects rfl rfl rfl rfl)

/-! ### Priorities, mutexes and the tick -/

theorem stockKept_taskPriChangeLoop (fuel : Nat) :
    ∀ (k : Kernel) (t newPri : Nat), StockKept k (taskPriChangeLoop fuel k t newPri).1 := by
  induction fuel with
  | zero => intro k _ _; exact StockKept.refl k
  | succ fuel ih =>
    intro k t newPri
    have hprio : ∀ k : Kernel, StockKept k (k.setTask t fun task => { task with prio := newPri }) :=
      fun _ => stockKept_setTask (fun _ hw => hw) rfl rfl
    unfold Rhino.Kernel.taskPriChangeLoop
    split
    · exact StockKept.refl k
    split
    · have h₁ : StockKept k ((k.readyListRm t).setTask t fun task => { task with prio := newPri }) :=
        (stockKept_readyListRm t).trans (hprio _)
      dsimp only
      split
      · exact h₁.trans (stockKept_readyListAddHead t)
      · exact h₁.trans (stockKept_readyListAddTail t)
    all_goals dsimp only
    · exact hprio k
    · exact hprio k
    · exact hprio k
    -- a waiter: reordered, then perhaps the owner
    all_goals try split
    all_goals first
      | exact StockKept.refl k
      | exact ((hprio k).trans (stockKept_pendListReorder t)).trans (ih _ _ _)
      | exact (hprio k).trans (stockKept_pendListReorder t)

theorem stockKept_mutexRelease (t : Nat) (rel : Option Nat) : StockKept k (k.mutexRelease t rel) := by
  unfold Kernel.mutexRelease
  rcases k.mutexPriLook t rel with ⟨newPri, chain⟩
  have h₁ : StockKept k (k.setTask t fun task => { task with mutexList := chain }) :=
    stockKept_setTask (fun _ hw => hw) rfl rfl
  dsimp only
  split
  · exact h₁.trans (stockKept_taskPriChangeLoop _ _ _ _)
  · exact h₁

theorem stockKept_mutexTaskPriReset (t : Nat) : StockKept k (k.mutexTaskPriReset t) := by
  unfold Kernel.mutexTaskPriReset
  split
  · split
    · split
      · split
        · exact stockKept_mutexRelease _ _
        · exact StockKept.refl k
      · exact StockKept.refl k
    · exact StockKept.refl k
  · exact StockKept.refl k

theorem stockKept_taskMutexFree (t : Nat) : StockKept k (k.taskMutexFree t) := by
  unfold Kernel.taskMutexFree
  generalize (k.tasks t).mutexList = ms
  induction ms generalizing k with
  | nil => exact StockKept.refl k
  | cons m ms ih =>
    unfold Kernel.taskMutexFree.go
    split
    · rename_i w _ _
      exact (((stockKept_pendTaskEnd w .finish).trans (stockKept_setMutex _ _)).trans
        (stockKept_setTask (fun _ hw => hw) rfl rfl)).trans ih
    · exact (stockKept_setMutex _ _).trans ih

theorem stockKept_tickExpire (t : Nat) : StockKept k (k.tickExpire t) := by
  unfold Kernel.tickExpire
  split
  · exact ((stockKept_setTask_quiet (by simp [KTask.IsPend])).trans (stockKept_tickListRm t)).trans
      (stockKept_readyListAdd t)
  · have h₁ : StockKept k ((((k.tickListRm t).blkListRm t).readyListAdd t).setTask t fun task =>
        { task with blkState := .timeout, taskState := .rdy }) :=
      (((stockKept_tickListRm t).trans (stockKept_blkListRm t)).trans (stockKept_readyListAdd t)).trans
        (stockKept_setTask_quiet (by simp [KTask.IsPend]))
    exact (h₁.trans (stockKept_mutexTaskPriReset t)).trans
      (stockKept_setTask_of fun _ hw _ => absurd hw.2 (by simp))
  · have h₁ : StockKept k (((k.tickListRm t).blkListRm t).setTask t fun task =>
        { task with blkState := .timeout, taskState := .suspended }) :=
      ((stockKept_tickListRm t).trans (stockKept_blkListRm t)).trans
        (stockKept_setTask_quiet (by simp [KTask.IsPend]))
    exact (h₁.trans (stockKept_mutexTaskPriReset t)).trans
      (stockKept_setTask_of fun _ hw _ => absurd hw.2 (by simp))
  · exact (stockKept_setTask_quiet (by simp [KTask.IsPend])).trans (stockKept_tickListRm t)
  · exact StockKept.refl k

theorem stockKept_tickListUpdate_go (l : List Nat) : StockKept k (tickListUpdate.go k l) := by
  induction l generalizing k with
  | nil => exact StockKept.refl k
  | cons t l ih =>
    unfold Kernel.tickListUpdate.go
    split
    · exact (stockKept_tickExpire t).trans ih
    · exact StockKept.refl k

theorem stockKept_tickListUpdate (ticks : Nat) : StockKept k (k.tickListUpdate ticks) := by
  unfold Kernel.tickListUpdate
  dsimp only
  have h₀ : StockKept k { k with tickCount := tickWrap (k.tickCount + ticks) } := stockKept_of_objects rfl rfl rfl rfl
  exact h₀.trans (stockKept_tickListUpdate_go _)

theorem stockKept_timeSliceUpdate : StockKept k k.timeSliceUpdate := by
  unfold Kernel.timeSliceUpdate
  dsimp only
  split
  · exact StockKept.refl k
  · rename_i t rest _
    split
    · exact StockKept.refl k
    split
    · exact StockKept.refl k
    generalize (if 0 < (k.tasks t).timeSlice then (k.tasks t).timeSlice - 1
      else (k.tasks t).timeSlice) = slice
    have h₁ : StockKept k (k.setTask t fun task => { task with timeSlice := slice }) :=
      stockKept_setTask (fun _ hw => hw) rfl rfl
    split
    · exact h₁
    · exact (h₁.trans (stockKept_readyListHeadToTail t)).trans (stockKept_setTask (fun _ hw => hw) rfl rfl)

/-- `event_set`'s walk: each waiter it wakes waits no more, and each flag it
clears only takes flags away. -/
theorem stockKept_eventSetWake (e : Nat) (cur : UInt32) (l : List Nat) :
    StockKept k (k.eventSetWake e cur l) := by
  induction l generalizing k with
  | nil => exact StockKept.refl k
  | cons t l ih =>
    unfold Kernel.eventSetWake
    dsimp only
    split
    · have h₁ : StockKept k ((k.setTask t fun task => { task with pendInfo := cur }).pendTaskWakeup t) :=
        (stockKept_setTask (fun _ hw => hw) rfl rfl).trans (stockKept_pendTaskEnd t .finish)
      refine h₁.trans ?_
      split
      · exact (stockKept_setEvent_and _ _).trans ih
      · exact ih
    · exact ih


theorem ObjInv.coreSched (h : k.ObjInv) : k.coreSched.ObjInv :=
  h.of_stockKept stockKept_coreSched

/-! ### Task services -/

theorem stockKept_krhinoTaskCreate (t prio ticks : Nat) (autorun : Bool) :
    StockKept k (k.krhinoTaskCreate t prio ticks autorun).1 := by
  unfold Kernel.krhinoTaskCreate Kernel.taskCreate
  by_cases hp : prio ≥ rhinoConfigPriMax
  · rw [if_pos hp]
    exact StockKept.refl k
  rw [if_neg hp]
  by_cases hi : 0 < k.intrptNested
  · rw [if_pos hi]
    exact StockKept.refl k
  rw [if_neg hi]
  by_cases he : prio = rhinoIdlePri ∧ k.idleTaskSpawned
  · rw [if_pos he]
    exact StockKept.refl k
  rw [if_neg he]
  dsimp only
  have h₀ : StockKept k (if prio = rhinoIdlePri then { k with idleTaskSpawned := true } else k) := by
    split
    · exact stockKept_of_objects rfl rfl rfl rfl
    · exact StockKept.refl k
  generalize (if prio = rhinoIdlePri then { k with idleTaskSpawned := true } else k) = k₁ at h₀ ⊢
  -- the new control block is ready or suspended: it waits on nothing
  have hnew : ∀ task : KTask, ¬task.IsPend → StockKept k (k₁.setTask t fun _ => task) :=
    fun _ hq => h₀.trans (stockKept_setTask_quiet hq)
  cases autorun with
  | false => exact hnew _ (by simp [KTask.IsPend])
  | true => exact ((hnew _ (by simp [KTask.IsPend])).trans (stockKept_readyListAddTail t)).trans stockKept_coreSched

theorem stockKept_krhinoTaskSleep (ticks : Nat) : StockKept k (k.krhinoTaskSleep ticks).1 := by
  unfold Kernel.krhinoTaskSleep
  split_ifs
  · exact StockKept.refl k
  · exact StockKept.refl k
  · exact StockKept.refl k
  exact (((stockKept_setTask_quiet (by simp [KTask.IsPend])).trans (stockKept_tickListInsert _ _)).trans
    (stockKept_readyListRm _)).trans stockKept_coreSched

theorem stockKept_krhinoTaskYield : StockKept k k.krhinoTaskYield.1 :=
  (stockKept_readyListHeadToTail _).trans stockKept_coreSched

theorem stockKept_krhinoTaskSuspend (t : Nat) : StockKept k (k.krhinoTaskSuspend t).1 := by
  unfold Kernel.krhinoTaskSuspend
  split
  · exact StockKept.refl k
  unfold Kernel.taskSuspend
  split
  · exact StockKept.refl k
  cases hs : (k.tasks t).taskState with
  | rdy =>
    simp only []
    exact ((stockKept_setTask_quiet (by simp [KTask.IsPend])).trans (stockKept_readyListRm t)).trans
      stockKept_coreSched
  | sleep =>
    simp only []
    exact (stockKept_setTask_quiet (by simp [KTask.IsPend])).trans stockKept_coreSched
  | pend =>
    -- still waiting, on the same object, for the same flags
    simp only []
    exact (stockKept_setTask (fun _ hw => ⟨Or.inl hs, hw.2⟩) rfl rfl).trans stockKept_coreSched
  | suspended | sleepSuspended | pendSuspended =>
    by_cases hc : (k.tasks t).suspendCount = suspendNestedMax
    · simp only [hc, if_true]
      exact StockKept.refl k
    · simp only [hc, if_false]
      exact (stockKept_setTask (fun _ hw => hw) rfl rfl).trans stockKept_coreSched
  | seed | deleted => exact StockKept.refl k

theorem stockKept_krhinoTaskResume (t : Nat) : StockKept k (k.krhinoTaskResume t).1 := by
  unfold Kernel.krhinoTaskResume
  dsimp only
  generalize ((k.tasks t).suspendCount + suspendNestedMax) % (suspendNestedMax + 1) = count
  have hdec : StockKept k (k.setTask t fun task => { task with suspendCount := count }) :=
    stockKept_setTask (fun _ hw => hw) rfl rfl
  cases hs : (k.tasks t).taskState with
  | rdy | sleep | pend | seed | deleted => exact StockKept.refl k
  | suspended =>
    simp only []
    split
    · exact ((hdec.trans (stockKept_setTask_quiet (by simp [KTask.IsPend]))).trans
        (stockKept_readyListAdd t)).trans stockKept_coreSched
    · exact hdec.trans stockKept_coreSched
  | sleepSuspended =>
    simp only []
    split
    · exact (hdec.trans (stockKept_setTask_quiet (by simp [KTask.IsPend]))).trans stockKept_coreSched
    · exact hdec.trans stockKept_coreSched
  | pendSuspended =>
    -- back to waiting, on the same object
    simp only []
    split
    · exact (hdec.trans (stockKept_setTask (fun _ hw => ⟨Or.inr (by simpa using hs), by simpa using hw.2⟩)
        rfl rfl)).trans stockKept_coreSched
    · exact hdec.trans stockKept_coreSched

theorem stockKept_krhinoTaskPriChange (t pri : Nat) : StockKept k (k.krhinoTaskPriChange t pri).1 := by
  unfold Kernel.krhinoTaskPriChange
  split_ifs
  · exact StockKept.refl k
  · exact StockKept.refl k
  · exact StockKept.refl k
  · exact StockKept.refl k
  have h₁ : StockKept k ((k.setTask t fun task => { task with bPrio := pri }).taskPriChange t
      (k.mutexPriLimit t pri)).1 :=
    (stockKept_setTask (fun _ hw => hw) rfl rfl).trans (stockKept_taskPriChangeLoop _ _ _ _)
  dsimp only
  split
  · exact h₁
  · exact h₁.trans stockKept_coreSched

theorem stockKept_krhinoTaskWaitAbort (t : Nat) : StockKept k (k.krhinoTaskWaitAbort t).1 := by
  unfold Kernel.krhinoTaskWaitAbort
  split
  · exact StockKept.refl k
  cases hs : (k.tasks t).taskState with
  | seed | deleted => exact StockKept.refl k
  | rdy => exact stockKept_coreSched
  | suspended =>
    simp only []
    exact ((stockKept_setTask_quiet (by simp [KTask.IsPend])).trans (stockKept_readyListAdd t)).trans
      stockKept_coreSched
  | sleep | sleepSuspended =>
    simp only []
    exact (((stockKept_tickListRm t).trans (stockKept_readyListAdd t)).trans
      (stockKept_setTask_quiet (by simp [KTask.IsPend]))).trans stockKept_coreSched
  | pend | pendSuspended =>
    simp only []
    have h₁ : StockKept k ((((k.tickListRm t).blkListRm t).readyListAdd t).setTask t fun task =>
        { task with taskState := .rdy, blkState := .abort }) :=
      (((stockKept_tickListRm t).trans (stockKept_blkListRm t)).trans (stockKept_readyListAdd t)).trans
        (stockKept_setTask_quiet (by simp [KTask.IsPend]))
    exact ((h₁.trans (stockKept_mutexTaskPriReset t)).trans
      (stockKept_setTask_of fun _ hw _ => absurd hw.2 (by simp))).trans stockKept_coreSched

theorem stockKept_krhinoTaskDel (t : Nat) : StockKept k (k.krhinoTaskDel t).1 := by
  unfold Kernel.krhinoTaskDel
  split_ifs
  · exact StockKept.refl k
  · exact StockKept.refl k
  · exact StockKept.refl k
  · exact StockKept.refl k
  have h₁ := stockKept_taskMutexFree (k := k) t
  dsimp only
  generalize k.taskMutexFree t = k₁ at h₁ ⊢
  -- whatever the state, the deleted task waits on nothing
  have hdel : ∀ k₂ : Kernel, StockKept k₂ (k₂.setTask t fun task => { task with taskState := .deleted }) :=
    fun _ => stockKept_setTask_quiet (by simp [KTask.IsPend])
  unfold Kernel.taskDelSwitch
  cases (k₁.tasks t).taskState with
  | seed | deleted => exact h₁
  | rdy => exact ((h₁.trans (stockKept_readyListRm t)).trans (hdel _)).trans stockKept_coreSched
  | suspended => exact (h₁.trans (hdel _)).trans stockKept_coreSched
  | sleep | sleepSuspended => exact ((h₁.trans (stockKept_tickListRm t)).trans (hdel _)).trans stockKept_coreSched
  | pend | pendSuspended =>
    exact ((((h₁.trans (stockKept_tickListRm t)).trans (stockKept_blkListRm t)).trans (hdel _)).trans
      (stockKept_mutexTaskPriReset t)).trans stockKept_coreSched

theorem stockKept_krhinoSchedDisable : StockKept k k.krhinoSchedDisable.1 := by
  unfold Kernel.krhinoSchedDisable
  split_ifs
  · exact StockKept.refl k
  · exact StockKept.refl k
  · exact stockKept_of_objects rfl rfl rfl rfl

theorem stockKept_krhinoSchedEnable : StockKept k k.krhinoSchedEnable.1 := by
  unfold Kernel.krhinoSchedEnable
  split_ifs
  · exact StockKept.refl k
  · exact StockKept.refl k
  have h₁ : StockKept k { k with schedLock := k.schedLock - 1 } := stockKept_of_objects rfl rfl rfl rfl
  dsimp only
  split
  · exact h₁
  · exact h₁.trans stockKept_coreSched

theorem stockKept_tick : StockKept k k.krhinoIntrptEnter.krhinoTickProc.krhinoIntrptExit := by
  have h₁ : StockKept k k.krhinoIntrptEnter := stockKept_of_objects rfl rfl rfl rfl
  have h₂ := (h₁.trans (stockKept_tickListUpdate 1)).trans stockKept_timeSliceUpdate
  rw [krhinoIntrptExit_eq]
  refine (h₂.trans ?_).trans stockKept_coreSched
  exact stockKept_of_objects rfl rfl rfl rfl

/-! ### Mutexes and buffer queues -/

theorem stockKept_krhinoMutexCreate (m : Nat) : StockKept k (k.krhinoMutexCreate m) :=
  stockKept_setMutex _ _

theorem not_available_mutex {t m : Nat} : ¬k.Available t (.mutex m) := fun h => h

theorem not_available_bufQueue {t q : Nat} : ¬k.Available t (.bufQueue q) := fun h => h

/-- A blocking call's caller is ready, so it waits on nothing before it blocks. -/
theorem stockKept_block (h : k.Inv) {r : ObjRef} (hr : ¬k.Available k.activeTask r) (ticks : Nat) :
    StockKept k (k.pendToBlkObj r k.activeTask ticks).coreSched :=
  (stockKept_pendToBlkObj (not_isPend_of_isRdy h.active_rdy) hr ticks).trans stockKept_coreSched

theorem stockKept_krhinoMutexLock (h : k.Inv) (m ticks : Nat) : StockKept k (k.krhinoMutexLock m ticks).1 := by
  unfold Kernel.krhinoMutexLock
  dsimp only
  split
  · exact StockKept.refl k
  split
  · exact StockKept.refl k
  split
  · split
    · exact StockKept.refl k
    · dsimp only
      exact stockKept_setMutex _ _
  split
  · dsimp only
    exact (stockKept_setMutex _ _).trans (stockKept_setTask (fun _ hw => hw) rfl rfl)
  · rename_i o _
    split
    · exact StockKept.refl k
    split
    · exact StockKept.refl k
    -- the owner may take the waiter's priority; the waiter is still ready, and blocks
    have hp := not_isPend_of_isRdy h.active_rdy
    split
    · have hk := statesKept_taskPriChangeLoop (2 * k.blocked.length + 2) k o k.active.prio
      refine (stockKept_taskPriChangeLoop _ _ _ _).trans
        ((stockKept_pendToBlkObj ?_ not_available_mutex ticks).trans stockKept_coreSched)
      simpa [KTask.IsPend, taskPriChange, hk.state] using hp
    · exact (stockKept_pendToBlkObj hp not_available_mutex ticks).trans stockKept_coreSched

theorem stockKept_krhinoMutexUnlock (m : Nat) : StockKept k (k.krhinoMutexUnlock m).1 := by
  unfold Kernel.krhinoMutexUnlock
  dsimp only
  split
  · exact StockKept.refl k
  split
  · exact StockKept.refl k
  split
  · exact StockKept.refl k
  have h₁ := stockKept_setMutex (k := k) m fun mx => { mx with ownerNested :=
      ((k.mutexes m).ownerNested + mutexNestedMax) % (mutexNestedMax + 1) }
  split
  · exact h₁
  have h₂ := h₁.trans (stockKept_mutexRelease k.activeTask (some m))
  generalize (k.setMutex m fun mx => { mx with ownerNested :=
      ((k.mutexes m).ownerNested + mutexNestedMax) % (mutexNestedMax + 1) }).mutexRelease
      k.activeTask (some m) = k₂ at h₂ ⊢
  split
  · dsimp only
    exact h₂.trans (stockKept_setMutex _ _)
  · dsimp only
    exact ((((h₂.trans (stockKept_pendTaskEnd _ .finish)).trans (stockKept_setMutex _ _)).trans
      (stockKept_setTask (fun _ hw => hw) rfl rfl))).trans stockKept_coreSched

theorem stockKept_krhinoMutexDel (m : Nat) : StockKept k (k.krhinoMutexDel m).1 := by
  unfold Kernel.krhinoMutexDel
  split_ifs
  · exact StockKept.refl k
  · exact StockKept.refl k
  dsimp only
  have h₁ := stockKept_setMutex (k := k) m fun mx => { mx with blkObj := { mx.blkObj with objType := .none } }
  generalize (k.setMutex m fun mx => { mx with blkObj := { mx.blkObj with objType := .none } }) = k₁ at h₁ ⊢
  split
  · exact ((h₁.trans (stockKept_mutexRelease _ _)).trans (stockKept_pendTaskRmAll _)).trans stockKept_coreSched
  · exact (h₁.trans (stockKept_pendTaskRmAll _)).trans stockKept_coreSched

theorem stockKept_bufQueueCreate (q : Nat) (mem : Nat → UInt8) (size maxMsg : Nat) (type : RingbufType) :
    StockKept k (k.bufQueueCreate q mem size maxMsg type).1 := by
  unfold Kernel.bufQueueCreate
  split
  · exact StockKept.refl k
  split
  · exact StockKept.refl k
  dsimp only
  exact stockKept_setBufQueue _ _

theorem stockKept_krhinoBufQueueSend (q : Nat) (msg : List UInt8) (size : Nat) :
    StockKept k (k.krhinoBufQueueSend q msg size).1 := by
  unfold Kernel.krhinoBufQueueSend Kernel.bufQueueSend
  dsimp only
  split
  · exact StockKept.refl k
  split
  · exact StockKept.refl k
  split
  · exact StockKept.refl k
  split
  · split
    · exact StockKept.refl k
    · dsimp only
      exact stockKept_setBufQueue _ _
  · dsimp only
    exact ((stockKept_setTask (fun _ hw => hw) rfl rfl).trans (stockKept_pendTaskEnd _ .finish)).trans
      stockKept_coreSched

theorem stockKept_krhinoBufQueueRecv (h : k.Inv) (q ticks : Nat) :
    StockKept k (k.krhinoBufQueueRecv q ticks).1 := by
  unfold Kernel.krhinoBufQueueRecv
  dsimp only
  split
  · exact StockKept.refl k
  split
  · exact StockKept.refl k
  split
  · dsimp only
    exact stockKept_setBufQueue _ _
  split
  · exact StockKept.refl k
  split
  · exact StockKept.refl k
  · exact stockKept_block h not_available_bufQueue ticks

theorem stockKept_krhinoBufQueueFlush (q : Nat) : StockKept k (k.krhinoBufQueueFlush q).1 := by
  unfold Kernel.krhinoBufQueueFlush
  split
  · exact StockKept.refl k
  split
  · exact StockKept.refl k
  dsimp only
  exact stockKept_setBufQueue _ _

theorem stockKept_krhinoBufQueueDel (q : Nat) : StockKept k (k.krhinoBufQueueDel q).1 := by
  unfold Kernel.krhinoBufQueueDel
  split
  · exact StockKept.refl k
  split
  · exact StockKept.refl k
  exact (((stockKept_setBufQueue _ _).trans (stockKept_pendTaskRmAll _)).trans (stockKept_setBufQueue _ _)).trans
    stockKept_coreSched

/-! ### Semaphores -/

/-- With nobody waiting on a semaphore, anything may be stored into it. -/
theorem ObjInv.setSem (h : k.ObjInv) {s : Nat} (hno : ∀ t, ¬(k.tasks t).WaitsOn (.sem s))
    (f : KSem → KSem) : (k.setSem s f).ObjInv where
  waiting t r hw ha := by
    cases r with
    | sem s' =>
      by_cases hs : s' = s
      · subst hs
        exact hno t hw
      · exact h.waiting t _ hw (by simpa [Available, setSem, hs] using ha)
    | queue _ | event _ => exact h.waiting t _ hw (by simpa [Available, setSem] using ha)
    | mutex _ | bufQueue _ => exact ha.elim
  ring q := h.ring q

/-- An empty blocked list has no waiter. -/
theorem WaitInv.not_waitsOn (hw : k.WaitInv) {r : ObjRef} (hl : (k.blkObj r).blkList = []) (t : Nat) :
    ¬(k.tasks t).WaitsOn r := fun hwt => by
  have hm := (hw.mem r t not_false).mpr ⟨hwt.2, hwt.1⟩
  rw [hl] at hm
  exact List.not_mem_nil hm

/-- What an object stores answers none of its waiters. -/
theorem ObjInv.not_waitsOn (h : k.ObjInv) {t : Nat} {r : ObjRef} (ha : k.Available t r) :
    ¬(k.tasks t).WaitsOn r := fun hw => h.waiting t r hw ha

theorem ObjInv.krhinoSemCreate (h : k.ObjInv) (hw : k.WaitInv) {s : Nat}
    (hs : (k.sems s).blkObj.blkList = []) (count : Nat) : (k.krhinoSemCreate s count).ObjInv :=
  h.setSem (hw.not_waitsOn (r := .sem s) hs) _

theorem stockKept_krhinoSemDel (s : Nat) : StockKept k (k.krhinoSemDel s).1 := by
  unfold Kernel.krhinoSemDel
  split
  · exact StockKept.refl k
  split
  · exact StockKept.refl k
  dsimp only
  exact ((stockKept_setSem rfl).trans (stockKept_pendTaskRmAll _)).trans stockKept_coreSched

/-- What `sem_give` can do: fail and change nothing, raise the count of a
semaphore nobody waits on, or hand the unit to the waiters and store nothing. -/
theorem semGive_cases (s : Nat) (wakeAll : Bool) :
    ((k.semGive s wakeAll).2 ≠ .success ∧ (k.semGive s wakeAll).1 = k) ∨
    ((k.semGive s wakeAll).2 = .success ∧ (k.sems s).blkObj.blkList = [] ∧
      (k.semGive s wakeAll).1 = k.setSem s fun sm =>
        { sm with
          count := (k.sems s).count + 1,
          peakCount := if (k.sems s).count + 1 > sm.peakCount then (k.sems s).count + 1 else sm.peakCount }) ∨
    ((k.semGive s wakeAll).2 = .success ∧ (k.sems s).blkObj.blkList ≠ [] ∧
      StockKept k (k.semGive s wakeAll).1) := by
  unfold Kernel.semGive
  dsimp only
  split
  · exact Or.inl ⟨by simp, rfl⟩
  split
  · rename_i hl
    split
    · exact Or.inl ⟨by simp, rfl⟩
    · exact Or.inr (Or.inl ⟨rfl, hl, rfl⟩)
  · -- the unit goes to the first waiter, or to all of them
    rename_i w ws hl
    refine Or.inr (Or.inr ⟨?_, by simp [hl], ?_⟩)
    · split <;> rfl
    · split
      · exact (stockKept_pendTaskWakeupAll _).trans stockKept_coreSched
      · exact (stockKept_pendTaskEnd _ .finish).trans stockKept_coreSched

theorem ObjInv.semGive (h : k.ObjInv) (hw : k.WaitInv) (s : Nat) (wakeAll : Bool) :
    (k.semGive s wakeAll).1.ObjInv := by
  rcases k.semGive_cases s wakeAll with ⟨_, hk⟩ | ⟨_, hl, hk⟩ | ⟨_, _, hs⟩
  · rw [hk]
    exact h
  · -- nobody waits on a semaphore whose count goes up
    rw [hk]
    exact h.setSem (hw.not_waitsOn (r := .sem s) hl) _
  · exact h.of_stockKept hs

/-- What `krhino_sem_take` can do: be refused and change nothing, take a unit
that is left, or block the caller on a semaphore with none. -/
theorem krhinoSemTake_cases (h : k.Inv) (s ticks : Nat) :
    ((k.krhinoSemTake s ticks).2 ≠ .ret .success ∧ (k.krhinoSemTake s ticks).1 = k) ∨
    ((k.krhinoSemTake s ticks).2 = .ret .success ∧ 0 < (k.sems s).count ∧
      (k.krhinoSemTake s ticks).1 = k.setSem s fun sm => { sm with count := sm.count - 1 }) ∨
    ((k.krhinoSemTake s ticks).2 = .blocked ∧ StockKept k (k.krhinoSemTake s ticks).1) := by
  unfold Kernel.krhinoSemTake
  split
  · exact Or.inl ⟨by simp, rfl⟩
  split
  · exact Or.inl ⟨by simp, rfl⟩
  split
  · rename_i hpos
    exact Or.inr (Or.inl ⟨rfl, hpos, rfl⟩)
  split
  · exact Or.inl ⟨by simp, rfl⟩
  split
  · exact Or.inl ⟨by simp, rfl⟩
  · rename_i hpos _ _
    exact Or.inr (Or.inr ⟨rfl, stockKept_block h (r := .sem s) hpos ticks⟩)

theorem ObjInv.krhinoSemTake (h : k.Inv) (ho : k.ObjInv) (s ticks : Nat) :
    (k.krhinoSemTake s ticks).1.ObjInv := by
  rcases k.krhinoSemTake_cases h s ticks with ⟨_, hk⟩ | ⟨_, hpos, hk⟩ | ⟨_, hs⟩
  · rw [hk]
    exact ho
  · -- a unit is left, so nobody waits
    rw [hk]
    exact ho.setSem (fun t => ho.not_waitsOn (r := .sem s) hpos) _
  · exact ho.of_stockKept hs

theorem ObjInv.krhinoSemCountSet (h : k.ObjInv) (hw : k.WaitInv) (s count : Nat) :
    (k.krhinoSemCountSet s count).1.ObjInv := by
  unfold Kernel.krhinoSemCountSet
  split
  · exact h
  split
  · exact h
  split
  · exact h
  -- refused only while tasks wait on an empty semaphore: here nobody waits
  rename_i hwait
  dsimp only
  refine h.setSem (fun t => ?_) _
  by_cases hc : (k.sems s).count = 0
  · have hl : (k.sems s).blkObj.blkList = [] := by simpa [hc] using hwait
    exact hw.not_waitsOn (r := .sem s) hl t
  · exact h.not_waitsOn (r := .sem s) (Nat.pos_of_ne_zero hc)

/-! ### Message queues -/

/-- A queue made again holds no message, so none of its waiters is answered. -/
theorem ObjInv.krhinoQueueCreate (h : k.ObjInv) (q : Nat) (start : Nat → UInt8) (msgNum : Nat) :
    (k.krhinoQueueCreate q start msgNum).1.ObjInv := by
  unfold Kernel.krhinoQueueCreate
  split
  · exact h
  rename_i hm
  dsimp only
  refine ⟨fun t r hwt ha => ?_, fun q' => ?_⟩
  · cases r with
    | queue q' =>
      by_cases hq' : q' = q
      · subst hq'
        simp [Available, setQueue] at ha
      · exact h.waiting t _ hwt (by simpa [Available, setQueue, hq'] using ha)
    | sem _ | event _ => exact h.waiting t _ hwt (by simpa [Available, setQueue] using ha)
    | mutex _ | bufQueue _ => exact ha.elim
  · by_cases hq' : q' = q
    · subst hq'
      simp only [setQueue_queues, if_true]
      exact fun _ => KQueue.RingOk.create start (Nat.pos_of_ne_zero hm)
    · simpa [setQueue, hq'] using h.ring q'

/-- `krhino_queue_del` leaves `cur_num` as it was; the queue is no longer live,
so its reset ring need not hold them. -/
theorem stockKept_krhinoQueueDel (q : Nat) : StockKept k (k.krhinoQueueDel q).1 := by
  unfold Kernel.krhinoQueueDel
  split
  · exact StockKept.refl k
  split
  · exact StockKept.refl k
  dsimp only
  set k₁ := k.setQueue q fun mq => { mq with blkObj := { mq.blkObj with objType := .none } } with hk₁
  have h₁ : StockKept k k₁ :=
    stockKept_setQueue (fun _ _ hc => hc) (fun ho => absurd ho (by simp)) fun _ ho => absurd ho (by simp)
  have h₂ := stockKept_pendTaskRmAll (k := k₁) (k₁.queues q).blkObj.blkList
  -- the queue stays dead while its waiters go
  have hdead : ((k₁.pendTaskRmAll (k₁.queues q).blkObj.blkList).queues q).blkObj.objType ≠ .queue :=
    fun ho => absurd (h₂.alive q ho) (by simp [hk₁, setQueue])
  exact ((h₁.trans h₂).trans (stockKept_setQueue (fun _ _ hc => hc) (fun ho => absurd ho hdead)
    fun _ ho => absurd ho hdead)).trans stockKept_coreSched

/-- `msg_send`: into the ring only when nobody waits, and never into a full one. -/
theorem stockKept_msgSend (hw : k.WaitInv) (q p : Nat) (wakeAll : Bool) :
    StockKept k (k.msgSend q p wakeAll).1 := by
  unfold Kernel.msgSend
  dsimp only
  split
  · exact StockKept.refl k
  split
  · exact StockKept.refl k
  rename_i hfull
  split
  · rename_i hl
    dsimp only
    refine stockKept_setQueue (fun t hwt _ => absurd hwt (hw.not_waitsOn (r := .queue q) hl t)) id
      fun hlive ho => ?_
    exact (hlive ho).push (by omega) p _
  · split
    · exact (stockKept_taskMsgRecvAll _ _).trans stockKept_coreSched
    · exact (stockKept_taskMsgRecv _ _).trans stockKept_coreSched

theorem stockKept_krhinoQueueRecv (h : k.Inv) (q ticks : Nat) : StockKept k (k.krhinoQueueRecv q ticks).1 := by
  unfold Kernel.krhinoQueueRecv
  dsimp only
  split
  · exact StockKept.refl k
  split
  · exact StockKept.refl k
  split
  · rename_i hpos
    dsimp only
    exact stockKept_setQueue (fun _ _ _ => hpos) id fun hlive ho => (hlive ho).pop hpos
  split
  · exact StockKept.refl k
  split
  · exact StockKept.refl k
  · rename_i hpos _ _
    exact stockKept_block h (r := .queue q) hpos ticks

theorem stockKept_krhinoQueueFlush (q : Nat) : StockKept k (k.krhinoQueueFlush q).1 := by
  unfold Kernel.krhinoQueueFlush
  split
  · exact StockKept.refl k
  split
  · exact StockKept.refl k
  dsimp only
  exact stockKept_setQueue (fun _ _ h0 => absurd h0 (Nat.lt_irrefl 0)) id fun hlive ho => (hlive ho).reset

/-! ### Event flags -/

/-- With nobody waiting on an event, its flags may be set to anything. -/
theorem ObjInv.setEvent (h : k.ObjInv) {e : Nat} (hno : ∀ t, ¬(k.tasks t).WaitsOn (.event e))
    (f : KEvent → KEvent) : (k.setEvent e f).ObjInv where
  waiting t r hw ha := by
    cases r with
    | event e' =>
      by_cases he : e' = e
      · subst he
        exact hno t hw
      · exact h.waiting t _ hw (by simpa [Available, setEvent, he] using ha)
    | sem _ | queue _ => exact h.waiting t _ hw (by simpa [Available, setEvent] using ha)
    | mutex _ | bufQueue _ => exact ha.elim
  ring q := h.ring q

theorem ObjInv.krhinoEventCreate (h : k.ObjInv) (hw : k.WaitInv) {e : Nat}
    (he : (k.events e).blkObj.blkList = []) (flags : UInt32) : (k.krhinoEventCreate e flags).ObjInv :=
  h.setEvent (hw.not_waitsOn (r := .event e) he) _

theorem stockKept_krhinoEventDel (e : Nat) : StockKept k (k.krhinoEventDel e).1 := by
  unfold Kernel.krhinoEventDel
  split
  · exact StockKept.refl k
  split
  · exact StockKept.refl k
  dsimp only
  exact (((stockKept_setEvent UInt32.and_self).trans (stockKept_pendTaskRmAll _)).trans
    (stockKept_setEvent UInt32.zero_and)).trans stockKept_coreSched

theorem stockKept_krhinoEventGet (h : k.Inv) (e : Nat) (flags : UInt32) (opt ticks : Nat) :
    StockKept k (k.krhinoEventGet e flags opt ticks).1 := by
  unfold Kernel.krhinoEventGet
  dsimp only
  split
  · exact StockKept.refl k
  split
  · exact StockKept.refl k
  split
  · exact StockKept.refl k
  split
  · -- the flags are there: they are cleared if asked for
    split
    · dsimp only
      exact stockKept_setEvent_and _ _
    · exact StockKept.refl k
  split
  · exact StockKept.refl k
  split
  · exact StockKept.refl k
  -- the running task records what it waits for, which the flags do not satisfy, and blocks
  rename_i hready _ _
  have hp := not_isPend_of_isRdy h.active_rdy
  have h₁ : StockKept k (k.setTask k.activeTask fun task => { task with pendOption := opt, pendFlags := flags }) :=
    stockKept_setTask_quiet (by simpa [KTask.IsPend] using hp)
  refine (h₁.trans (stockKept_pendToBlkObj ?_ ?_ ticks)).trans stockKept_coreSched
  · simpa [KTask.IsPend] using hp
  · simpa [Available] using hready

theorem pendTaskEnd_blkObj (t : Nat) (st : BlkState) : ((k.pendTaskEnd t st).tasks t).blkObj = none := by
  simp [pendTaskEnd]

/-- The walk of `event_set` from a state whose only waiters the flags answer are
tasks of `l` still to be visited, with the flags among `cur`: afterwards no waiter
is answered. -/
theorem eventSetWake_objInv {e : Nat} {cur : UInt32} (l : List Nat) :
    ∀ k : Kernel, (k.events e).flags &&& cur = (k.events e).flags →
      (∀ t r, (k.tasks t).WaitsOn r → k.Available t r → r = .event e ∧ t ∈ l) →
      (∀ q, (k.queues q).LiveOk) → (k.eventSetWake e cur l).ObjInv := by
  induction l with
  | nil =>
    intro k _ hav hring
    exact ⟨fun t r hw ha => List.not_mem_nil (hav t r hw ha).2, hring⟩
  | cons t ts ih =>
    intro k hcur hav hring
    unfold Kernel.eventSetWake
    dsimp only
    split
    · -- `t` is woken and waits no more; the flags it clears only take flags away
      rename_i hready
      set k₁ := (k.setTask t fun task => { task with pendInfo := cur }).pendTaskWakeup t with hk₁
      have hs₁ : StockKept k k₁ :=
        (stockKept_setTask (fun _ hw => hw) rfl rfl).trans (stockKept_pendTaskEnd t .finish)
      have ht₁ : (k₁.tasks t).blkObj = none := pendTaskEnd_blkObj t .finish
      set k₂ := (if (k.tasks t).pendOption &&& rhinoFlagsClearMask ≠ 0 then
          k₁.setEvent e fun ev => { ev with flags := ev.flags &&& ~~~(k.tasks t).pendFlags } else k₁) with hk₂
      have hs₂ : StockKept k₁ k₂ ∧ k₂.tasks = k₁.tasks := by
        rw [hk₂]
        split
        · exact ⟨stockKept_setEvent_and _ _, rfl⟩
        · exact ⟨StockKept.refl k₁, rfl⟩
      have hs := hs₁.trans hs₂.1
      refine ih k₂ ?_ (fun u r hw ha => ?_) fun q => hs.ring q (hring q)
      · rw [← hs.flags e, UInt32.and_assoc, hcur]
      · obtain ⟨hw₀, ha₀⟩ := hs.waits u r hw ha
        obtain ⟨hr, hu⟩ := hav u r hw₀ ha₀
        refine ⟨hr, (List.mem_cons.mp hu).resolve_left fun hut => ?_⟩
        subst hut
        have hb := hw.2
        rw [hs₂.2, ht₁] at hb
        exact absurd hb (by simp)
    · -- `t` stays; the flags, only ever fewer than `cur`, do not answer it
      rename_i hready
      refine ih k hcur (fun u r hw ha => ?_) hring
      obtain ⟨hr, hu⟩ := hav u r hw ha
      refine ⟨hr, (List.mem_cons.mp hu).resolve_left fun hut => ?_⟩
      subst hut hr
      exact hready (eventReady_mono hcur ha)

theorem ObjInv.krhinoEventSet (h : k.ObjInv) (hw : k.WaitInv) (e : Nat) (flags : UInt32) (opt : Nat) :
    (k.krhinoEventSet e flags opt).1.ObjInv := by
  unfold Kernel.krhinoEventSet Kernel.eventSet
  dsimp only
  split
  · exact h
  split
  · exact h
  split
  · dsimp only
    exact h.of_stockKept (stockKept_setEvent_and _ _)
  -- `RHINO_OR`: the flags go up, and the walk wakes every waiter they answer
  set k₁ := k.setEvent e fun ev => { ev with flags := ev.flags ||| flags } with hk₁
  refine (eventSetWake_objInv _ k₁ UInt32.and_self (fun t r hwt ha => ?_) h.ring).coreSched
  cases r with
  | event e' =>
    by_cases he : e' = e
    · -- a waiter on `e` is on its list
      subst he
      refine ⟨rfl, ?_⟩
      have hm := (hw.mem (.event e') t not_false).mpr ⟨hwt.2, hwt.1⟩
      simpa [hk₁, blkObj] using hm
    · exact absurd (by simpa [Available, hk₁, setEvent, he] using ha) (h.waiting t _ hwt)
  | sem _ | queue _ => exact absurd (by simpa [Available, hk₁, setEvent] using ha) (h.waiting t _ hwt)
  | mutex _ | bufQueue _ => exact ha.elim

/-! ### Whole runs -/

end Kernel

/-- The calls the frame `StockKept` does not cover: those that may change a
semaphore's count, make a queue, or set event flags. -/
def KCall.Stores : KCall → Prop
  | .semCreate .. | .semGive _ | .semGiveAll _ | .semTake .. | .semCountSet .. | .queueCreate ..
  | .eventCreate .. | .eventSet .. => True
  | _ => False

namespace Kernel

variable {k k' k'' : Kernel}

/-- Every other admissible call is a step of the frame. -/
theorem stockKept_call (h : k.Inv) (hw : k.WaitInv) (c : KCall) (hs : ¬c.Stores) :
    StockKept k (k.call c).1 := by
  cases c with
  | taskCreate t prio ticks autorun => exact stockKept_krhinoTaskCreate t prio ticks autorun
  | taskSleep ticks => exact stockKept_krhinoTaskSleep ticks
  | taskYield => exact stockKept_krhinoTaskYield
  | taskSuspend t => exact stockKept_krhinoTaskSuspend t
  | taskResume t => exact stockKept_krhinoTaskResume t
  | taskPriChange t pri => exact stockKept_krhinoTaskPriChange t pri
  | taskWaitAbort t => exact stockKept_krhinoTaskWaitAbort t
  | taskDel t => exact stockKept_krhinoTaskDel t
  | schedDisable => exact stockKept_krhinoSchedDisable
  | schedEnable => exact stockKept_krhinoSchedEnable
  | tick => exact stockKept_tick
  | mutexCreate m => exact stockKept_krhinoMutexCreate m
  | mutexLock m ticks => exact stockKept_krhinoMutexLock h m ticks
  | mutexUnlock m => exact stockKept_krhinoMutexUnlock m
  | mutexDel m => exact stockKept_krhinoMutexDel m
  | bufQueueCreate q mem size maxMsg => exact stockKept_bufQueueCreate q mem size maxMsg .dyn
  | fixBufQueueCreate q mem msgSize msgNum => exact stockKept_bufQueueCreate q mem _ msgSize .fix
  | bufQueueSend q msg size => exact stockKept_krhinoBufQueueSend q msg size
  | bufQueueRecv q ticks => exact stockKept_krhinoBufQueueRecv h q ticks
  | bufQueueFlush q => exact stockKept_krhinoBufQueueFlush q
  | bufQueueDel q => exact stockKept_krhinoBufQueueDel q
  | semDel s => exact stockKept_krhinoSemDel s
  | queueDel q => exact stockKept_krhinoQueueDel q
  | queueBackSend q p => exact stockKept_msgSend hw q p false
  | queueAllSend q p => exact stockKept_msgSend hw q p true
  | queueRecv q ticks => exact stockKept_krhinoQueueRecv h q ticks
  | queueFlush q => exact stockKept_krhinoQueueFlush q
  | eventDel e => exact stockKept_krhinoEventDel e
  | eventGet e flags opt ticks => exact stockKept_krhinoEventGet h e flags opt ticks
  | semCreate _ _ | semGive _ | semGiveAll _ | semTake _ _ | semCountSet _ _ | queueCreate _ _ _
  | eventCreate _ _ | eventSet _ _ _ => exact absurd trivial hs

/-- Every admissible call keeps `ObjInv`. -/
theorem ObjInv.call (h : k.Inv) (hw : k.WaitInv) (ho : k.ObjInv) (c : KCall) (hc : k.callOk c = true) :
    (k.call c).1.ObjInv := by
  -- the object a create names has an empty list
  have hnil : ∀ l : List Nat, l.isEmpty = true → l = [] := fun l => List.isEmpty_iff.mp
  by_cases hs : c.Stores
  · cases c with
    | semCreate s count => exact ho.krhinoSemCreate hw (hnil _ hc) count
    | semGive s => exact ho.semGive hw s false
    | semGiveAll s => exact ho.semGive hw s true
    | semTake s ticks => exact ho.krhinoSemTake h s ticks
    | semCountSet s count => exact ho.krhinoSemCountSet hw s count
    | queueCreate q start msgNum => exact ho.krhinoQueueCreate q start msgNum
    | eventCreate e flags => exact ho.krhinoEventCreate hw (hnil _ hc) flags
    | eventSet e flags opt => exact ho.krhinoEventSet hw e flags opt
    | _ => exact absurd hs id
  · exact ho.of_stockKept (stockKept_call h hw c hs)

/-- Nothing waits before `krhino_init`, and no queue is live. -/
theorem krhinoInit_objInv : krhinoInit.ObjInv := by
  unfold krhinoInit
  refine ObjInv.of_stockKept ⟨fun t r hw _ => ?_, fun q ho => ?_⟩ (stockKept_krhinoTaskCreate _ _ _ _)
  · simp [zero, KTask.zero, KTask.WaitsOn, KTask.IsPend] at hw
  · simp [zero, BlkObj.none] at ho

theorem Reachable.objInv (hk : k.Reachable) : k.ObjInv := by
  obtain ⟨cs, hok, rfl⟩ := hk
  have hall := Machine.exec_invariant_allowed (fun k => k.Inv ∧ k.WaitInv ∧ k.ObjInv)
    (fun k c h hc => ⟨h.1.call c hc, h.2.1.call h.1 c hc, h.2.2.call h.1 h.2.1 c hc⟩)
    ⟨krhinoInit_inv, krhinoInit_waitInv, krhinoInit_objInv⟩ hok
  exact hall.2.2

/-- The waiters of semaphores, queues and events and the queues' rings, as the
blocked lists show them. -/
structure StockOk (k : Kernel) : Prop where
  sem : ∀ s, (k.sems s).blkObj.blkList ≠ [] → (k.sems s).count = 0
  queue : ∀ q, (k.queues q).blkObj.blkList ≠ [] → (k.queues q).curNum = 0
  ring : ∀ q, (k.queues q).blkObj.objType = .queue → (k.queues q).RingOk
  event : ∀ e, ∀ t ∈ (k.events e).blkObj.blkList,
    eventReady (k.events e).flags (k.tasks t).pendFlags (k.tasks t).pendOption = false

/-- A task on a blocked list waits on its object. -/
theorem WaitInv.waitsOn_of_mem (hw : k.WaitInv) {r : ObjRef} {t : Nat} (hm : t ∈ (k.blkObj r).blkList) :
    (k.tasks t).WaitsOn r :=
  let ⟨hb, hp⟩ := (hw.mem r t not_false).mp hm
  ⟨hp, hb⟩

/-- A non-empty blocked list has a waiter. -/
theorem WaitInv.exists_waitsOn (hw : k.WaitInv) {r : ObjRef} (hl : (k.blkObj r).blkList ≠ []) :
    ∃ t, (k.tasks t).WaitsOn r := by
  obtain ⟨t, hm⟩ := List.exists_mem_of_ne_nil _ hl
  exact ⟨t, hw.waitsOn_of_mem hm⟩

theorem ObjInv.stockOk (ho : k.ObjInv) (hw : k.WaitInv) : k.StockOk where
  sem s hl := by
    obtain ⟨t, hwt⟩ := hw.exists_waitsOn (r := .sem s) hl
    exact Nat.eq_zero_of_not_pos (ho.waiting t _ hwt)
  queue q hl := by
    obtain ⟨t, hwt⟩ := hw.exists_waitsOn (r := .queue q) hl
    exact Nat.eq_zero_of_not_pos (ho.waiting t _ hwt)
  ring q := ho.ring q
  event e t hm := by
    simpa [Available] using ho.waiting t _ (hw.waitsOn_of_mem (r := .event e) hm)

/-! ### The units of a semaphore -/

end Kernel

/-- Units of a semaphore that calls move: given by successful gives, taken at
once by successful takes, and handed by gives to a waiter. -/
structure SemUnits where
  given : Nat
  taken : Nat
  handed : Nat
  deriving DecidableEq, Repr

instance : Zero SemUnits := ⟨⟨0, 0, 0⟩⟩

instance : Add SemUnits := ⟨fun a b => ⟨a.given + b.given, a.taken + b.taken, a.handed + b.handed⟩⟩

@[simp] theorem SemUnits.zero_given : (0 : SemUnits).given = 0 := rfl
@[simp] theorem SemUnits.zero_taken : (0 : SemUnits).taken = 0 := rfl
@[simp] theorem SemUnits.zero_handed : (0 : SemUnits).handed = 0 := rfl
@[simp] theorem SemUnits.add_given (a b : SemUnits) : (a + b).given = a.given + b.given := rfl
@[simp] theorem SemUnits.add_taken (a b : SemUnits) : (a + b).taken = a.taken + b.taken := rfl
@[simp] theorem SemUnits.add_handed (a b : SemUnits) : (a + b).handed = a.handed + b.handed := rfl

/-- The calls that set semaphore `s`'s count outright. -/
def KCall.SetsCount (s : Nat) : KCall → Prop
  | .semCreate s' _ | .semGiveAll s' | .semCountSet s' _ => s' = s
  | _ => False

namespace Kernel

variable {k k' k'' : Kernel}

/-- The units of semaphore `s` that one call in state `k` moves. -/
def semUnits (s : Nat) (k : Kernel) : KCall → SemUnits
  | .semGive s' =>
    if s' = s ∧ (k.krhinoSemGive s').2 = .success then
      ⟨1, 0, if (k.sems s).blkObj.blkList = [] then 0 else 1⟩
    else 0
  | .semTake s' ticks => if s' = s ∧ (k.krhinoSemTake s' ticks).2 = .ret .success then ⟨0, 1, 0⟩ else 0
  | _ => 0

theorem count_setSem_ne {s s' : Nat} (hne : s' ≠ s) (f : KSem → KSem) :
    ((k.setSem s' f).sems s).count = (k.sems s).count := by
  simp [Ne.symm hne]

/-- A give on another semaphore leaves the count of `s`. -/
theorem semGive_count_ne {s s' : Nat} (hne : s' ≠ s) (wakeAll : Bool) :
    ((k.semGive s' wakeAll).1.sems s).count = (k.sems s).count := by
  rcases k.semGive_cases s' wakeAll with ⟨_, hk⟩ | ⟨_, _, hk⟩ | ⟨_, _, hs⟩
  · rw [hk]
  · rw [hk, count_setSem_ne hne]
  · exact hs.count s

/-- A give moves one unit: into the count, or to a waiter. -/
theorem semUnits_semGive (s s' : Nat) :
    (k.sems s).count + (semUnits s k (.semGive s')).given =
      ((k.semGive s' false).1.sems s).count + (semUnits s k (.semGive s')).taken +
        (semUnits s k (.semGive s')).handed := by
  by_cases hss : s' = s
  · subst hss
    simp only [semUnits, krhinoSemGive, true_and]
    rcases k.semGive_cases s' false with ⟨hr, hk⟩ | ⟨hr, hl, hk⟩ | ⟨hr, hl, hs⟩
    · rw [if_neg hr, hk]
      rfl
    · rw [if_pos hr, if_pos hl, hk]
      simp
    · rw [if_pos hr, if_neg hl, hs.count s']
      simp
  · have h0 : semUnits s k (.semGive s') = 0 := by simp [semUnits, hss]
    rw [h0, semGive_count_ne hss]
    rfl

/-- A take moves one unit out of the count when it returns `RHINO_SUCCESS` at once. -/
theorem semUnits_semTake (h : k.Inv) (s s' ticks : Nat) :
    (k.sems s).count + (semUnits s k (.semTake s' ticks)).given =
      ((k.krhinoSemTake s' ticks).1.sems s).count + (semUnits s k (.semTake s' ticks)).taken +
        (semUnits s k (.semTake s' ticks)).handed := by
  simp only [semUnits]
  rcases k.krhinoSemTake_cases h s' ticks with ⟨hr, hk⟩ | ⟨hr, hpos, hk⟩ | ⟨hr, hs⟩
  · rw [if_neg fun hh => hr hh.2, hk]
    rfl
  · rw [hk]
    by_cases hss : s' = s
    · subst hss
      rw [if_pos ⟨rfl, hr⟩]
      simp
      omega
    · rw [if_neg fun hh => hss hh.1, count_setSem_ne hss]
      rfl
  · rw [if_neg (by simp [hr]), hs.count s]
    rfl

/-- One call: the count it had and what a give brought is the count it has, what
a take got at once and what a give handed to a waiter. -/
theorem semUnits_balance (h : k.Inv) (hw : k.WaitInv) {s : Nat} (c : KCall) (hs : ¬c.SetsCount s) :
    (k.sems s).count + (semUnits s k c).given =
      ((k.call c).1.sems s).count + (semUnits s k c).taken + (semUnits s k c).handed := by
  by_cases hst : c.Stores
  · cases c with
    | semGive s' => exact semUnits_semGive s s'
    | semTake s' ticks => exact semUnits_semTake h s s' ticks
    | semGiveAll s' =>
      show (k.sems s).count + 0 = ((k.semGive s' true).1.sems s).count + 0 + 0
      rw [semGive_count_ne hs]
    | semCreate s' count =>
      show (k.sems s).count + 0 = ((k.krhinoSemCreate s' count).sems s).count + 0 + 0
      rw [krhinoSemCreate, count_setSem_ne hs]
    | semCountSet s' count =>
      show (k.sems s).count + 0 = ((k.krhinoSemCountSet s' count).1.sems s).count + 0 + 0
      unfold Kernel.krhinoSemCountSet
      split_ifs
      · rfl
      · rfl
      · rfl
      · dsimp only
        rw [count_setSem_ne hs]
    | queueCreate q start msgNum =>
      show (k.sems s).count + 0 = ((k.krhinoQueueCreate q start msgNum).1.sems s).count + 0 + 0
      unfold Kernel.krhinoQueueCreate
      split <;> rfl
    | eventCreate e flags => rfl
    | eventSet e flags opt =>
      -- the flags go up and the walk only wakes waiters
      show (k.sems s).count + 0 = ((k.krhinoEventSet e flags opt).1.sems s).count + 0 + 0
      unfold Kernel.krhinoEventSet Kernel.eventSet
      dsimp only
      split_ifs
      · rfl
      · rfl
      · rfl
      · rw [coreSched_sems, (stockKept_eventSetWake _ _ _).count s]
        rfl
    | _ => exact absurd hst id
  · -- no give and no take: the count is kept
    have h0 : semUnits s k c = 0 := by
      cases c <;> first | rfl | exact absurd trivial hst
    rw [h0, (stockKept_call h hw c hst).count s]
    rfl

end Kernel

end Rhino
