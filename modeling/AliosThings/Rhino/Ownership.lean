import AliosThings.Rhino.System

/-!
# Who owns a mutex, and deleting its owner

A mutex's owner and its nesting count `owner_nested` are written in three
places only: `krhino_mutex_lock`, `krhino_mutex_unlock` and `task_mutex_free`.
Everything else the kernel does to a mutex touches its blocked list alone
(`SameOwners`). The unlock hand-over restarts the count at `1`; the hand-over of
`task_mutex_free`, on the owner's deletion, does not write it at all, so the new
owner inherits the deleted task's count. `krhino_task_del` also runs
`task_mutex_free` before it looks at the task's state, and the chain of a deleted
task is never cleared: deleting it again gives its old mutexes away once more and
returns `RHINO_INV_TASK_STATE` without `core_sched`.
-/

namespace Rhino

open Machine

namespace Kernel

/-- Every mutex keeps its owner and its nesting count. -/
def SameOwners (k k' : Kernel) : Prop :=
  ∀ m, (k'.mutexes m).mutexTask = (k.mutexes m).mutexTask ∧
    (k'.mutexes m).ownerNested = (k.mutexes m).ownerNested

theorem SameOwners.refl (k : Kernel) : SameOwners k k := fun _ => ⟨rfl, rfl⟩

theorem SameOwners.trans {k₁ k₂ k₃ : Kernel} (h₁ : SameOwners k₁ k₂) (h₂ : SameOwners k₂ k₃) :
    SameOwners k₁ k₃ := fun m =>
  ⟨(h₂ m).1.trans (h₁ m).1, (h₂ m).2.trans (h₁ m).2⟩

theorem SameOwners.of_mutexes {k k' : Kernel} (h : k'.mutexes = k.mutexes) : SameOwners k k' :=
  fun m => by rw [h]; exact ⟨rfl, rfl⟩

theorem setBlkList_sameOwners (k : Kernel) (r : ObjRef) (l : List Nat) :
    SameOwners k (k.setBlkList r l) := fun m => by
  rw [setBlkList_mutexes]
  exact ⟨rfl, rfl⟩

theorem tickListRm_sameOwners (k : Kernel) (t : Nat) : SameOwners k (k.tickListRm t) := by
  unfold tickListRm
  split
  · exact SameOwners.of_mutexes rfl
  · exact SameOwners.refl k

theorem tickListInsert_sameOwners (k : Kernel) (t time : Nat) :
    SameOwners k (k.tickListInsert t time) := by
  unfold tickListInsert
  split
  · exact SameOwners.of_mutexes rfl
  · exact SameOwners.refl k

theorem blkListRm_sameOwners (k : Kernel) (t : Nat) : SameOwners k (k.blkListRm t) := by
  unfold blkListRm
  split
  · exact setBlkList_sameOwners k _ _
  · exact SameOwners.refl k

theorem pendListReorder_sameOwners (k : Kernel) (t : Nat) :
    SameOwners k (k.pendListReorder t) := by
  unfold pendListReorder
  split
  · split
    · exact setBlkList_sameOwners k _ _
    · exact SameOwners.refl k
  · exact SameOwners.refl k

theorem pendTaskWakeup_sameOwners (k : Kernel) (t : Nat) :
    SameOwners k (k.pendTaskWakeup t) := by
  unfold pendTaskWakeup pendTaskEnd
  -- the state split only decides whether the task goes back to a ready list
  have hwake : SameOwners k (k.pendTaskLeave t) := by
    unfold pendTaskLeave
    split
    · exact blkListRm_sameOwners k t
    · exact blkListRm_sameOwners k t
    · exact SameOwners.refl k
  exact hwake.trans ((tickListRm_sameOwners _ t).trans (SameOwners.of_mutexes rfl))

theorem taskPriChangeLoop_sameOwners :
    ∀ (fuel : Nat) (k : Kernel) (t newPri : Nat), SameOwners k (taskPriChangeLoop fuel k t newPri).1
  | 0, k, _, _ => SameOwners.refl k
  | fuel + 1, k, t, newPri => by
    unfold taskPriChangeLoop
    split
    · exact SameOwners.refl k
    split
    -- ready: out of its list and back in
    · refine SameOwners.of_mutexes ?_
      dsimp only
      split <;> rfl
    · exact SameOwners.of_mutexes rfl
    · exact SameOwners.of_mutexes rfl
    · exact SameOwners.of_mutexes rfl
    -- a waiter: its list is reordered, then the owner's priority may follow
    · have hre : SameOwners k ((k.setTask t fun task => { task with prio := newPri }).pendListReorder t) :=
        (SameOwners.of_mutexes rfl).trans (pendListReorder_sameOwners _ t)
      dsimp only
      split
      · exact hre.trans (taskPriChangeLoop_sameOwners fuel _ _ _)
      · exact hre
    · have hre : SameOwners k ((k.setTask t fun task => { task with prio := newPri }).pendListReorder t) :=
        (SameOwners.of_mutexes rfl).trans (pendListReorder_sameOwners _ t)
      dsimp only
      split
      · exact hre.trans (taskPriChangeLoop_sameOwners fuel _ _ _)
      · exact hre
    · exact SameOwners.refl k

theorem mutexRelease_sameOwners (k : Kernel) (t : Nat) (rel : Option Nat) :
    SameOwners k (k.mutexRelease t rel) := by
  unfold mutexRelease
  rcases k.mutexPriLook t rel with ⟨newPri, chain⟩
  have hset : SameOwners k (k.setTask t fun task => { task with mutexList := chain }) :=
    SameOwners.of_mutexes rfl
  dsimp only
  split
  · exact hset.trans (taskPriChangeLoop_sameOwners _ _ _ _)
  · exact hset

/-- `task_mutex_free` never writes `owner_nested`: a mutex handed to a waiter on
its owner's deletion keeps the count the deleted owner had. -/
theorem taskMutexFree_ownerNested (k : Kernel) (t m : Nat) :
    ((k.taskMutexFree t).mutexes m).ownerNested = (k.mutexes m).ownerNested := by
  unfold taskMutexFree
  -- induction on the chain, for every state the hand-overs so far have left
  suffices h : ∀ (ms : List Nat) (k : Kernel),
      ((taskMutexFree.go k ms).mutexes m).ownerNested = (k.mutexes m).ownerNested from h _ k
  intro ms
  induction ms with
  | nil => intro k; rfl
  | cons m' ms ih =>
    intro k
    unfold taskMutexFree.go
    split
    · rename_i w _ _
      rw [ih]
      by_cases hm : m = m'
      · subst hm
        simp [(pendTaskWakeup_sameOwners k w m).2]
      · simp [hm, (pendTaskWakeup_sameOwners k w m).2]
    · rw [ih]
      by_cases hm : m = m' <;> simp [hm]

/-- The hand-over of `krhino_mutex_unlock`, by contrast, restarts the count: after a
successful unlock the mutex is free or its new owner holds it once. -/
theorem krhinoMutexUnlock_ownerNested (k : Kernel) (m : Nat)
    (h : (k.krhinoMutexUnlock m).2 = .success) :
    ((k.krhinoMutexUnlock m).1.mutexes m).mutexTask = none ∨
      ((k.krhinoMutexUnlock m).1.mutexes m).ownerNested = 1 := by
  unfold krhinoMutexUnlock at h ⊢
  simp only [] at h ⊢
  -- only the last nesting level gets past the checks with `RHINO_SUCCESS`
  split_ifs at h ⊢
  split
  · left
    simp
  · right
    simp

/-- Deleting a static task that is already deleted still runs `task_mutex_free` on
its chain, and returns `RHINO_INV_TASK_STATE` without asking for a switch. -/
theorem krhinoTaskDel_invTaskState (k : Kernel) (t : Nat) (hint : k.intrptNested = 0)
    (hidle : (k.tasks t).prio ≠ rhinoIdlePri) (hstatic : (k.tasks t).mmAllocFlag = kObjStaticAlloc)
    (hlock : t = k.activeTask → k.schedLock = 0)
    (hst : ((k.taskMutexFree t).tasks t).taskState = .deleted ∨
      ((k.taskMutexFree t).tasks t).taskState = .seed) :
    k.krhinoTaskDel t = (k.taskMutexFree t, .invTaskState) := by
  have hlock' : ¬(t = k.activeTask ∧ 0 < k.schedLock) := fun ⟨ht, hl⟩ => by
    have := hlock ht
    omega
  unfold krhinoTaskDel
  rw [if_neg (by omega), if_neg hidle, if_neg (not_not.mpr hstatic), if_neg hlock']
  rcases hst with hst | hst <;> simp only [taskDelSwitch, hst]

end Kernel

/-- Control is in task code with the scheduler unlocked, and the running task is
ready with no ready task of a strictly better priority. -/
def Kernel.Preemptive (k : Kernel) : Prop :=
  k.intrptNested = 0 → k.schedLock = 0 →
    k.active.taskState = .rdy ∧ ∀ t, (k.tasks t).taskState = .rdy → k.active.prio ≤ (k.tasks t).prio

/-- Task `1` locks mutex `0` twice; task `2`, more urgent, waits for it; then task
`1` deletes itself. -/
def nestedOwnerDeleted : Kernel :=
  exec Kernel.call Kernel.krhinoInit
    [.taskCreate 1 20 0 true, .mutexCreate 0, .mutexLock 0 rhinoWaitForever,
     .mutexLock 0 rhinoWaitForever, .taskCreate 2 10 0 true, .mutexLock 0 rhinoWaitForever,
     .taskDel 1]

/-- Task `2` is handed the mutex with `owner_nested` still `2`: its one unlock
answers `RHINO_MUTEX_OWNER_NESTED` and keeps the mutex locked. -/
theorem taskDel_handover_keeps_owner_nested :
    nestedOwnerDeleted.activeTask = 2 ∧ (nestedOwnerDeleted.mutexes 0).mutexTask = some 2 ∧
      (nestedOwnerDeleted.mutexes 0).ownerNested = 2 ∧
      (Kernel.call nestedOwnerDeleted (.mutexUnlock 0)).2 = .ret .mutexOwnerNested ∧
      ((Kernel.call nestedOwnerDeleted (.mutexUnlock 0)).1.mutexes 0).mutexTask = some 2 := by
  decide

/-- Task `1` takes mutex `0` and deletes itself, which frees the mutex but leaves
`0` in its chain; task `2` takes the mutex, task `3` waits for it and lends task `2`
its priority `10`; task `2` creates task `4` and suspends itself, and task `4`
deletes task `1` again. -/
def staleChainRedeleted : Kernel × KRet :=
  Kernel.call
    (exec Kernel.call Kernel.krhinoInit
      [.taskCreate 1 25 0 true, .mutexCreate 0, .mutexLock 0 rhinoWaitForever, .taskDel 1,
       .taskCreate 2 30 0 true, .mutexLock 0 rhinoWaitForever, .taskCreate 3 10 0 true,
       .mutexLock 0 rhinoWaitForever, .taskCreate 4 20 0 true, .taskSuspend 2])
    (.taskDel 1)

/-- The second deletion fails, yet it has woken task `3` of priority `10` and made it
the mutex's owner, and it returns to task `4` of priority `20` without a switch. -/
theorem taskDel_deleted_readies_without_switch :
    staleChainRedeleted.2 = .ret .invTaskState ∧ staleChainRedeleted.1.activeTask = 4 ∧
      (staleChainRedeleted.1.tasks 3).taskState = .rdy ∧ (staleChainRedeleted.1.tasks 3).prio = 10 ∧
      ¬ staleChainRedeleted.1.Preemptive := by
  refine ⟨by decide, by decide, by decide, by decide, fun h => ?_⟩
  have hbetter := (h (by decide) (by decide)).2 3 (by decide)
  revert hbetter
  decide

/-- After the same call task `2`, suspended but alive, keeps the priority `10` that
task `3` lent it, over its base priority `30`, though the only mutex of the run
now belongs to task `3` and has no waiter. -/
theorem taskDel_deleted_leaves_lent_priority :
    staleChainRedeleted.2 = .ret .invTaskState ∧
      (staleChainRedeleted.1.tasks 2).taskState = .suspended ∧
      (staleChainRedeleted.1.tasks 2).prio = 10 ∧ (staleChainRedeleted.1.tasks 2).bPrio = 30 ∧
      (staleChainRedeleted.1.mutexes 0).mutexTask = some 3 ∧
      (staleChainRedeleted.1.mutexes 0).blkObj.blkList = [] ∧
      (staleChainRedeleted.1.tasks 2).mutexList = [0] := by
  decide

end Rhino
