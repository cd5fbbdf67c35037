import AliosThings.Rhino.TaskOps

/-!
# Mutexes (`k_mutex.c`)

A mutex records its owner `mutex_task` and how many times the owner locked it,
`owner_nested`; it is linked into the owner's chain of held mutexes. A task
that finds the mutex held waits on its priority-sorted blocked list, lending
its priority to the owner when it is more urgent. Unlocking the last nesting
level hands the mutex to the first waiter with `owner_nested` back at `1`.
-/

namespace Rhino

/-- The largest `mutex_nested_t`. -/
def mutexNestedMax : Nat := 255

namespace Kernel

/-- `mutex_create`: `owner_nested` is not set until the mutex is first taken. -/
def krhinoMutexCreate (k : Kernel) (m : Nat) : Kernel :=
  k.setMutex m fun mx => { mx with blkObj := ⟨[], .pri, .mutex⟩, mutexTask := none }

/-- `krhino_mutex_lock` by the active task. -/
def krhinoMutexLock (k : Kernel) (m ticks : Nat) : Kernel × KRet :=
  if 0 < k.intrptNested then (k, .ret .notCalledByIntrpt)
  else if (k.mutexes m).blkObj.objType ≠ .mutex then (k, .ret .kobjTypeErr)
  else
    let a := k.activeTask
    if (k.mutexes m).mutexTask = some a then
      if (k.mutexes m).ownerNested = mutexNestedMax then (k, .ret .mutexNestedOvf)
      else (k.setMutex m fun mx => { mx with ownerNested := mx.ownerNested + 1 }, .ret .mutexOwnerNested)
    else
      match (k.mutexes m).mutexTask with
      | none =>
        let k := k.setMutex m fun mx => { mx with mutexTask := some a, ownerNested := 1 }
        (k.setTask a fun task => { task with mutexList := m :: task.mutexList }, .ret .success)
      | some o =>
        if ticks = rhinoNoWait then (k, .ret .noPendWait)
        else if 0 < k.schedLock then (k, .ret .schedDisable)
        else
          -- priority inheritance: the owner takes the waiter's priority
          let k := if k.active.prio < (k.tasks o).prio then (k.taskPriChange o k.active.prio).1 else k
          let k := k.pendToBlkObj (.mutex m) a ticks
          (k.coreSched, .blocked)

/-- `krhino_mutex_unlock` by the active task. -/
def krhinoMutexUnlock (k : Kernel) (m : Nat) : Kernel × Kstat :=
  if 0 < k.intrptNested then (k, .notCalledByIntrpt)
  else if (k.mutexes m).blkObj.objType ≠ .mutex then (k, .kobjTypeErr)
  else
    let a := k.activeTask
    if (k.mutexes m).mutexTask ≠ some a then (k, .mutexNotReleasedByOwner)
    else
      -- `owner_nested--` on the 8-bit counter
      let nested := ((k.mutexes m).ownerNested + mutexNestedMax) % (mutexNestedMax + 1)
      let k := k.setMutex m fun mx => { mx with ownerNested := nested }
      if 0 < nested then (k, .mutexOwnerNested)
      else
        let k := k.mutexRelease a (some m)
        match (k.mutexes m).blkObj.blkList with
        | [] => (k.setMutex m fun mx => { mx with mutexTask := none }, .success)
        | w :: _ =>
          let k := k.pendTaskWakeup w
          let k := k.setMutex m fun mx => { mx with mutexTask := some w, ownerNested := 1 }
          let k := k.setTask w fun task => { task with mutexList := m :: task.mutexList }
          (k.coreSched, .success)

/-- `krhino_mutex_del`: the owner gives the mutex up and every waiter is woken
with `RHINO_BLK_DEL`. -/
def krhinoMutexDel (k : Kernel) (m : Nat) : Kernel × Kstat :=
  if 0 < k.intrptNested then (k, .notCalledByIntrpt)
  else if (k.mutexes m).blkObj.objType ≠ .mutex then (k, .kobjTypeErr)
  else
    let k := k.setMutex m fun mx => { mx with blkObj := { mx.blkObj with objType := .none } }
    let k := match (k.mutexes m).mutexTask with
      | some o => k.mutexRelease o (some m)
      | none => k
    ((k.pendTaskRmAll (k.mutexes m).blkObj.blkList).coreSched, .success)

end Kernel

end Rhino
