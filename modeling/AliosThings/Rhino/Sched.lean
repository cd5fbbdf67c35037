import AliosThings.Rhino.Kernel
import AliosThings.Lib.Bitmap

/-!
# The ready queue and the scheduler (`k_sched.c`, `k_bitmap.h`)

`g_ready_queue` keeps, for each priority, the circular list of ready tasks read
from `cur_list_item[p]`, one bit per priority in `task_bit_map` (the most
significant bit of word `0` for priority `0`, as `BITMAP_MASK` sets it), and
`highest_pri`. Only `ready_list_init` and `ready_list_rm` touch the bitmap and
`highest_pri`. The single-core configuration is modelled: `core_sched` switches
to the head of the highest non-empty list unless an interrupt is being served
or the scheduler is locked.
-/

namespace Rhino

/-- `BITMAP_MASK(nr)`. -/
def bitmapMask (nr : Nat) : UInt32 :=
  (1 : UInt32) <<< UInt32.ofNat (31 - nr % 32)

/-- `BITMAP_WORD(nr)`. -/
def bitmapWord (nr : Nat) : Nat :=
  nr / 32

/-- `krhino_bitmap_set`. -/
def krhinoBitmapSet (bm : Nat → UInt32) (nr : Nat) : Nat → UInt32 :=
  fun w => if w = bitmapWord nr then bm w ||| bitmapMask nr else bm w

/-- `krhino_bitmap_clear`. -/
def krhinoBitmapClear (bm : Nat → UInt32) (nr : Nat) : Nat → UInt32 :=
  fun w => if w = bitmapWord nr then bm w &&& ~~~(bitmapMask nr) else bm w

/-- The leading-zero count of `krhino_find_first_bit` on a non-zero word, by halving. -/
def findFirstBitWord (tmp : UInt32) : Nat :=
  let (tmp, nr) := if tmp &&& 0xFFFF0000 = 0 then (tmp <<< 16, 16) else (tmp, 0)
  let (tmp, nr) := if tmp &&& 0xFF000000 = 0 then (tmp <<< 8, nr + 8) else (tmp, nr)
  let (tmp, nr) := if tmp &&& 0xF0000000 = 0 then (tmp <<< 4, nr + 4) else (tmp, nr)
  let (tmp, nr) := if tmp &&& 0xC0000000 = 0 then (tmp <<< 2, nr + 2) else (tmp, nr)
  if tmp &&& 0x80000000 = 0 then nr + 1 else nr

/-- `krhino_find_first_bit`: the words are scanned from word `0`. The code scans
on past the bitmap when every bit is clear; the model stops at `NUM_WORDS`. -/
def krhinoFindFirstBit (bm : Nat → UInt32) : Option Nat :=
  go 0 numWords
where
  go (w : Nat) : Nat → Option Nat
    | 0 => none
    | n + 1 => if bm w = 0 then go (w + 1) n else some (32 * w + findFirstBitWord (bm w))

/-- The bitmap operations of `k_bitmap.h` are those of `Bitmap`. -/
theorem krhinoBitmapSet_eq (bm : Nat → UInt32) (nr : Nat) : krhinoBitmapSet bm nr = Bitmap.set bm nr :=
  rfl

theorem krhinoBitmapClear_eq (bm : Nat → UInt32) (nr : Nat) :
    krhinoBitmapClear bm nr = Bitmap.clear bm nr :=
  rfl

theorem findFirstBitWord_eq (x : UInt32) : findFirstBitWord x = Bitmap.clz x :=
  rfl

/-- The scan of the code over `n` words from word `w` is the library's. -/
theorem krhinoFindFirstBit_go_eq (bm : Nat → UInt32) (n w : Nat) :
    krhinoFindFirstBit.go bm w n = Bitmap.findFirst bm w n := by
  induction n generalizing w with
  | zero => rfl
  | succ n ih => simp only [krhinoFindFirstBit.go, Bitmap.findFirst, ih, findFirstBitWord_eq]

theorem krhinoFindFirstBit_eq (bm : Nat → UInt32) :
    krhinoFindFirstBit bm = Bitmap.findFirst bm 0 numWords :=
  krhinoFindFirstBit_go_eq bm numWords 0

/-- `BITMAP_MASK` tests the bit `Bitmap.test` reads. -/
theorem bitmapMask_ne_zero_iff (bm : Nat → UInt32) (nr : Nat) :
    bm (bitmapWord nr) &&& bitmapMask nr ≠ 0 ↔ Bitmap.test bm nr = true :=
  Bitmap.and_mask_ne_zero_iff bm nr

namespace RunQueue

/-- `is_ready_list_empty`. -/
def isReadyListEmpty (rq : RunQueue) (p : Nat) : Bool :=
  (rq.curListItem p).isEmpty

/-- `ready_list_init` of task `t` of priority `p`: its list becomes the task alone. -/
def readyListInit (rq : RunQueue) (t p : Nat) : RunQueue where
  curListItem := fun q => if q = p then [t] else rq.curListItem q
  taskBitMap := krhinoBitmapSet rq.taskBitMap p
  highestPri := if p < rq.highestPri then p else rq.highestPri

/-- `_ready_list_add_tail`: `klist_insert` before `cur_list_item`, at the end. -/
def readyListAddTail (rq : RunQueue) (t p : Nat) : RunQueue :=
  if rq.isReadyListEmpty p then rq.readyListInit t p
  else { rq with curListItem := fun q => if q = p then rq.curListItem p ++ [t] else rq.curListItem q }

/-- `_ready_list_add_head`: inserted at the end, then made `cur_list_item`. -/
def readyListAddHead (rq : RunQueue) (t p : Nat) : RunQueue :=
  if rq.isReadyListEmpty p then rq.readyListInit t p
  else { rq with curListItem := fun q => if q = p then t :: rq.curListItem p else rq.curListItem q }

/-- `ready_list_add`: at the end when the task has the running task's priority
`activePri`. -/
def readyListAdd (rq : RunQueue) (t p activePri : Nat) : RunQueue :=
  if p = activePri then rq.readyListAddTail t p else rq.readyListAddHead t p

/-- `ready_list_rm` of task `t` of priority `p`. With more than one task the task
is unlinked, `cur_list_item` moving on when it pointed at it; the last task
empties the list, clears the bit, and when its priority was `highest_pri` the next
one is looked up. When no bit is left the code calls `k_err_proc`; the model
keeps `highest_pri`. -/
def readyListRm (rq : RunQueue) (t p : Nat) : RunQueue :=
  let l := rq.curListItem p
  if 1 < l.length then
    { rq with curListItem := fun q => if q = p then l.erase t else rq.curListItem q }
  else
    let bm := krhinoBitmapClear rq.taskBitMap p
    let highestPri :=
      if p ≠ rq.highestPri then rq.highestPri
      else (krhinoFindFirstBit bm).getD rq.highestPri
    { curListItem := fun q => if q = p then [] else rq.curListItem q,
      taskBitMap := bm, highestPri := highestPri }

/-- `ready_list_head_to_tail`: `cur_list_item[p]` moves to the next task. -/
def readyListHeadToTail (rq : RunQueue) (p : Nat) : RunQueue :=
  { rq with curListItem := fun q => if q = p then (rq.curListItem p).rotateLeft 1
                                    else rq.curListItem q }

end RunQueue

namespace Kernel

/-- `ready_list_add_tail(&g_ready_queue, task)`. -/
def readyListAddTail (k : Kernel) (t : Nat) : Kernel :=
  { k with readyQueue := k.readyQueue.readyListAddTail t (k.tasks t).prio }

/-- `ready_list_add_head(&g_ready_queue, task)`. -/
def readyListAddHead (k : Kernel) (t : Nat) : Kernel :=
  { k with readyQueue := k.readyQueue.readyListAddHead t (k.tasks t).prio }

/-- `ready_list_add(&g_ready_queue, task)`. -/
def readyListAdd (k : Kernel) (t : Nat) : Kernel :=
  { k with readyQueue := k.readyQueue.readyListAdd t (k.tasks t).prio k.active.prio }

/-- `ready_list_rm(&g_ready_queue, task)`. -/
def readyListRm (k : Kernel) (t : Nat) : Kernel :=
  { k with readyQueue := k.readyQueue.readyListRm t (k.tasks t).prio }

/-- `ready_list_head_to_tail(&g_ready_queue, task)`. -/
def readyListHeadToTail (k : Kernel) (t : Nat) : Kernel :=
  { k with readyQueue := k.readyQueue.readyListHeadToTail (k.tasks t).prio }

@[simp] theorem readyListAdd_tasks (k : Kernel) (t : Nat) : (k.readyListAdd t).tasks = k.tasks := rfl
@[simp] theorem readyListAddTail_tasks (k : Kernel) (t : Nat) :
    (k.readyListAddTail t).tasks = k.tasks := rfl
@[simp] theorem readyListAddHead_tasks (k : Kernel) (t : Nat) :
    (k.readyListAddHead t).tasks = k.tasks := rfl
@[simp] theorem readyListRm_tasks (k : Kernel) (t : Nat) : (k.readyListRm t).tasks = k.tasks := rfl
@[simp] theorem readyListHeadToTail_tasks (k : Kernel) (t : Nat) :
    (k.readyListHeadToTail t).tasks = k.tasks := rfl

/-- `preferred_cpu_ready_task_get` on one CPU: the task at `cur_list_item[highest_pri]`. -/
def preferredCpuReadyTaskGet (k : Kernel) : Kernel :=
  match k.readyQueue.curListItem k.readyQueue.highestPri with
  | t :: _ => { k with preferredTask := t }
  | [] => k

/-- `core_sched`: unless in an interrupt or with the scheduler locked, switch to
the preferred task. -/
def coreSched (k : Kernel) : Kernel :=
  if 0 < k.intrptNested then k
  else if 0 < k.schedLock then k
  else
    let k := k.preferredCpuReadyTaskGet
    if k.preferredTask = k.activeTask then k
    else { k with activeTask := k.preferredTask }

theorem preferredCpuReadyTaskGet_eq (k : Kernel) :
    ∃ p, k.preferredCpuReadyTaskGet = { k with preferredTask := p } := by
  unfold preferredCpuReadyTaskGet
  split
  · exact ⟨_, rfl⟩
  · exact ⟨k.preferredTask, rfl⟩

/-- `core_sched` only chooses the task to run. -/
theorem coreSched_eq (k : Kernel) :
    ∃ a p, k.coreSched = { k with activeTask := a, preferredTask := p } := by
  obtain ⟨p, hp⟩ := k.preferredCpuReadyTaskGet_eq
  unfold coreSched
  simp only [hp]
  split_ifs
  · exact ⟨k.activeTask, k.preferredTask, rfl⟩
  · exact ⟨k.activeTask, k.preferredTask, rfl⟩
  · exact ⟨k.activeTask, p, rfl⟩
  · exact ⟨p, p, rfl⟩

@[simp] theorem coreSched_tasks (k : Kernel) : k.coreSched.tasks = k.tasks := by
  obtain ⟨a, p, h⟩ := k.coreSched_eq
  rw [h]

@[simp] theorem coreSched_readyQueue (k : Kernel) : k.coreSched.readyQueue = k.readyQueue := by
  obtain ⟨a, p, h⟩ := k.coreSched_eq
  rw [h]

@[simp] theorem coreSched_mutexes (k : Kernel) : k.coreSched.mutexes = k.mutexes := by
  obtain ⟨a, p, h⟩ := k.coreSched_eq
  rw [h]

@[simp] theorem coreSched_bufQueues (k : Kernel) : k.coreSched.bufQueues = k.bufQueues := by
  obtain ⟨a, p, h⟩ := k.coreSched_eq
  rw [h]

@[simp] theorem coreSched_tickList (k : Kernel) : k.coreSched.tickList = k.tickList := by
  obtain ⟨a, p, h⟩ := k.coreSched_eq
  rw [h]

@[simp] theorem coreSched_tickCount (k : Kernel) : k.coreSched.tickCount = k.tickCount := by
  obtain ⟨a, p, h⟩ := k.coreSched_eq
  rw [h]

/-- `time_slice_update` on one CPU: a round-robin task at the head of the running
priority's list that used up its slice goes to the end of the list. -/
def timeSliceUpdate (k : Kernel) : Kernel :=
  let p := k.active.prio
  match k.readyQueue.curListItem p with
  | [] => k
  | t :: rest =>
    if (k.tasks t).schedPolicy = .fifo then k
    else if rest = [] then k
    else
      let slice := if 0 < (k.tasks t).timeSlice then (k.tasks t).timeSlice - 1
                   else (k.tasks t).timeSlice
      let k := k.setTask t fun task => { task with timeSlice := slice }
      if 0 < slice then k
      else (k.readyListHeadToTail t).setTask t fun task => { task with timeSlice := task.timeTotal }

/-- The time slice moves no task out of its state. -/
@[simp] theorem timeSliceUpdate_taskState (k : Kernel) (u : Nat) :
    (k.timeSliceUpdate.tasks u).taskState = (k.tasks u).taskState := by
  unfold timeSliceUpdate
  dsimp only
  split
  · rfl
  · rename_i t rest _
    split
    · rfl
    split
    · rfl
    by_cases hu : u = t <;> split_ifs <;> simp [hu]

@[simp] theorem timeSliceUpdate_blkState (k : Kernel) (u : Nat) :
    (k.timeSliceUpdate.tasks u).blkState = (k.tasks u).blkState := by
  unfold timeSliceUpdate
  dsimp only
  split
  · rfl
  · rename_i t rest _
    split
    · rfl
    split
    · rfl
    by_cases hu : u = t <;> split_ifs <;> simp [hu]

end Kernel

end Rhino
