import AliosThings.Rhino.TaskOps

/-!
# Semaphores (`k_sem.c`)

A semaphore counts the units nobody has taken. A give with a task waiting
hands the unit straight to the first waiter, which is woken with
`BLK_FINISH` and leaves the count alone; without waiters it raises the count.
A take with a unit left lowers the count; without one it blocks.

`sem_count_t` comes from the port's `k_types.h`, not in the tree; the model
takes the usual 32 bits.
-/

namespace Rhino

/-- `(sem_count_t)-1`. -/
def semCountMax : Nat := 2 ^ 32 - 1

namespace Kernel

/-- `krhino_sem_create`. -/
def krhinoSemCreate (k : Kernel) (s count : Nat) : Kernel :=
  k.setSem s fun _ => { blkObj := ⟨[], .pri, .sem⟩, count := count, peakCount := count }

/-- `krhino_sem_del`: every waiter is woken with `BLK_DEL`. -/
def krhinoSemDel (k : Kernel) (s : Nat) : Kernel × Kstat :=
  if 0 < k.intrptNested then (k, .notCalledByIntrpt)
  else if (k.sems s).blkObj.objType ≠ .sem then (k, .kobjTypeErr)
  else
    let k := k.setSem s fun sm => { sm with blkObj := { sm.blkObj with objType := .none } }
    ((k.pendTaskRmAll (k.sems s).blkObj.blkList).coreSched, .success)

/-- `sem_give`: to the first waiter, to all of them with `opt_wake_all`, or into the count. -/
def semGive (k : Kernel) (s : Nat) (wakeAll : Bool) : Kernel × Kstat :=
  let sm := k.sems s
  if sm.blkObj.objType ≠ .sem then (k, .kobjTypeErr)
  else
    match sm.blkObj.blkList with
    | [] =>
      if sm.count = semCountMax then (k, .semOvf)
      else
        let count := sm.count + 1
        (k.setSem s fun sm =>
          { sm with count := count, peakCount := if count > sm.peakCount then count else sm.peakCount },
          .success)
    | w :: ws =>
      if wakeAll then ((k.pendTaskWakeupAll (w :: ws)).coreSched, .success)
      else ((k.pendTaskWakeup w).coreSched, .success)

/-- `krhino_sem_give`. -/
def krhinoSemGive (k : Kernel) (s : Nat) : Kernel × Kstat :=
  k.semGive s false

/-- `krhino_sem_give_all`. -/
def krhinoSemGiveAll (k : Kernel) (s : Nat) : Kernel × Kstat :=
  k.semGive s true

/-- `krhino_sem_take` by the active task. -/
def krhinoSemTake (k : Kernel) (s ticks : Nat) : Kernel × KRet :=
  if 0 < k.intrptNested then (k, .ret .notCalledByIntrpt)
  else if (k.sems s).blkObj.objType ≠ .sem then (k, .ret .kobjTypeErr)
  else if 0 < (k.sems s).count then
    (k.setSem s fun sm => { sm with count := sm.count - 1 }, .ret .success)
  else if ticks = rhinoNoWait then (k, .ret .noPendWait)
  else if 0 < k.schedLock then (k, .ret .schedDisable)
  else ((k.pendToBlkObj (.sem s) k.activeTask ticks).coreSched, .blocked)

/-- `krhino_sem_count_set`: refused while tasks wait on an empty semaphore. -/
def krhinoSemCountSet (k : Kernel) (s count : Nat) : Kernel × Kstat :=
  if 0 < k.intrptNested then (k, .notCalledByIntrpt)
  else if (k.sems s).blkObj.objType ≠ .sem then (k, .kobjTypeErr)
  else if (k.sems s).count = 0 ∧ (k.sems s).blkObj.blkList ≠ [] then (k, .semTaskWaiting)
  else
    (k.setSem s fun sm =>
      { sm with count := count, peakCount := if count > sm.peakCount then count else sm.peakCount },
      .success)

end Kernel

end Rhino
