import AliosThings.Rhino.WaitRun

/-!
# Tasks made and freed dynamically (`krhino_task_dyn_del`, `k_dyn_mem_proc.c`)

`krhino_task_dyn_create` takes the control block and the stack of a task from
`krhino_mm_alloc`. `krhino_task_dyn_del` cannot free them while the task may still
run on them: it writes a `res_free_t` record naming both, links it on `g_res_list`,
and gives `g_res_sem`; the task `dyn_mem_proc_task` takes the semaphore and frees
the records it finds, oldest first. The record is linked before the give, and the
error return after a failed give leaves it linked.

In every run where no deletion finds `g_res_sem` at its largest count, each task is
freed at most once, only once deleted and not running, and a failed deletion links
nothing. A give can overflow, though: `dyn_mem_proc_task` may drain each record
without taking the semaphore, and after `2 ^ 32 - 1` such deletions the next one
returns `RHINO_SEM_OVF` with the record of a live task linked, which is then freed.

The kernel part of the state is the one of `Rhino.Kernel`, whose control blocks
carry `mm_alloc_flag` (`K_OBJ_DYN_ALLOC` for the tasks whose memory came from the
heap). Beside it stand the tasks named by the records on `g_res_list`, the count of
`g_res_sem`, where `dyn_mem_proc_task` is in its loop, and the tasks whose stack and
control block it has passed to `krhino_mm_free`. The heap itself is not modelled: allocation does
not fail, and a new task gets a control block never used before. The task
`dyn_mem_proc_task` is not in the kernel's task table; its steps may come between
any two calls.
-/

namespace Rhino

/-- Where `dyn_mem_proc_task` is: about to take `g_res_sem` (or waiting on it), or
draining `g_res_list`. -/
inductive ProcPc where
  | take
  | drain
  deriving DecidableEq, Repr

/-- The kernel with `g_res_list`, `g_res_sem` and `dyn_mem_proc_task`. -/
structure DynKernel where
  k : Kernel
  resList : List Nat
  resCount : Nat
  proc : ProcPc
  freed : List Nat

/-- A call: `krhino_task_dyn_create`, `krhino_task_dyn_del` (`none` for the calling
task), or one step of `dyn_mem_proc_task`. -/
inductive DynCall where
  | create (t prio ticks stack : Nat) (autorun : Bool)
  | del (t : Option Nat)
  | procStep
  deriving DecidableEq, Repr

namespace DynKernel

/-- `krhino_task_dyn_create`: a stack of no words is refused; otherwise the task is
made by `task_create` with `K_OBJ_DYN_ALLOC`. -/
def krhinoTaskDynCreate (d : DynKernel) (t prio ticks stack : Nat) (autorun : Bool) : DynKernel × Kstat :=
  if stack = 0 then (d, .invParam)
  else
    let r := d.k.taskCreate t prio ticks kObjDynAlloc autorun
    if r.2 = .success then ({ d with k := r.1 }, .success)
    else (d, r.2)

/-- The switch of `krhino_task_dyn_del` on the state of the task, after its mutexes
are handed on. Unlike `krhino_task_del`, a task in `K_SEED` passes unchanged. -/
def taskDynDelState (k : Kernel) (t : Nat) : Kernel :=
  match (k.tasks t).taskState with
  | .rdy => (k.readyListRm t).setTask t fun task => { task with taskState := .deleted }
  | .suspended => k.setTask t fun task => { task with taskState := .deleted }
  | .sleep | .sleepSuspended => (k.tickListRm t).setTask t fun task => { task with taskState := .deleted }
  | .pend | .pendSuspended =>
    let k := ((k.tickListRm t).blkListRm t).setTask t fun task => { task with taskState := .deleted }
    k.mutexTaskPriReset t
  | _ => k

/-- `krhino_task_dyn_del`. -/
def krhinoTaskDynDel (d : DynKernel) (t : Option Nat) : DynKernel × Kstat :=
  if 0 < d.k.intrptNested then (d, .notCalledByIntrpt)
  else
    let t := t.getD d.k.activeTask
    if (d.k.tasks t).prio = rhinoIdlePri then (d, .taskDelNotAllowed)
    else if (d.k.tasks t).mmAllocFlag ≠ kObjDynAlloc then (d, .kobjDelErr)
    else if t = d.k.activeTask ∧ 0 < d.k.schedLock then (d, .schedDisable)
    else if (d.k.tasks t).taskState = .deleted then (d, .invTaskState)
    else
      -- the record goes on `g_res_list` before `g_res_sem` is given
      let d := { d with resList := d.resList ++ [t] }
      if d.resCount = semCountMax then (d, .semOvf)
      else
        let d := { d with resCount := d.resCount + 1 }
        ({ d with k := (taskDynDelState (d.k.taskMutexFree t) t).coreSched }, .success)

/-- One step of `dyn_mem_proc_task`: take `g_res_sem`, or free the oldest record. -/
def dynMemProcStep (d : DynKernel) : DynKernel :=
  match d.proc with
  | .take => if 0 < d.resCount then { d with resCount := d.resCount - 1, proc := .drain } else d
  | .drain =>
    match d.resList with
    | t :: rest => { d with resList := rest, freed := d.freed ++ [t] }
    | [] => { d with proc := .take }

end DynKernel

/-! ### What deleting a task does to the other tasks -/

/-- A task's state moved at most as a wake-up moves it: `K_PEND` to `K_RDY`, or
`K_PEND_SUSPENDED` to `K_SUSPENDED`. -/
def TaskState.Woken (a b : TaskState) : Prop :=
  b = a ∨ (a = .pend ∧ b = .rdy) ∨ (a = .pendSuspended ∧ b = .suspended)

namespace TaskState.Woken

variable {a b c : TaskState}

theorem refl (a : TaskState) : Woken a a := .inl rfl

theorem trans (h₁ : Woken a b) (h₂ : Woken b c) : Woken a c := by
  unfold Woken at *
  rcases h₁ with rfl | ⟨rfl, rfl⟩ | ⟨rfl, rfl⟩ <;> rcases h₂ with rfl | ⟨h, rfl⟩ | ⟨h, rfl⟩ <;> simp_all

/-- A wake-up neither ends a deleted task nor starts a new one. -/
theorem deleted_iff (h : Woken a b) : b = .deleted ↔ a = .deleted := by
  rcases h with rfl | ⟨rfl, rfl⟩ | ⟨rfl, rfl⟩ <;> simp

theorem seed_iff (h : Woken a b) : b = .seed ↔ a = .seed := by
  rcases h with rfl | ⟨rfl, rfl⟩ | ⟨rfl, rfl⟩ <;> simp

end TaskState.Woken

namespace Kernel

/-- Every task's state moved at most by a wake-up, and no `mm_alloc_flag` changed. -/
def StatesWoken (k k' : Kernel) : Prop :=
  ∀ u, TaskState.Woken (k.tasks u).taskState (k'.tasks u).taskState ∧
    (k'.tasks u).mmAllocFlag = (k.tasks u).mmAllocFlag

variable {k k' k'' : Kernel}

theorem StatesWoken.refl (k : Kernel) : StatesWoken k k := fun _ => ⟨.refl _, rfl⟩

theorem StatesWoken.trans (h₁ : StatesWoken k k') (h₂ : StatesWoken k' k'') : StatesWoken k k'' :=
  fun u => ⟨(h₁ u).1.trans (h₂ u).1, (h₂ u).2.trans (h₁ u).2⟩

theorem StatesWoken.of_kept (h : ∀ u, (k'.tasks u).taskState = (k.tasks u).taskState ∧
    (k'.tasks u).mmAllocFlag = (k.tasks u).mmAllocFlag) : StatesWoken k k' :=
  fun u => ⟨.inl (h u).1, (h u).2⟩

theorem statesWoken_pendTaskWakeup (w : Nat) : StatesWoken k (k.pendTaskWakeup w) := by
  intro u
  by_cases hu : u = w
  · subst hu
    simp only [pendTaskWakeup, pendTaskEnd, setTask_tasks, if_true, tickListRm_taskState,
      tickListRm_mmAllocFlag]
    unfold pendTaskLeave
    split <;> rename_i hst
    · exact ⟨.inr (.inl ⟨hst, by simp⟩), by simp⟩
    · exact ⟨.inr (.inr ⟨hst, by simp⟩), by simp⟩
    · exact ⟨.refl _, rfl⟩
  · simp only [pendTaskWakeup, pendTaskEnd, setTask_tasks, if_neg hu, tickListRm_taskState,
      tickListRm_mmAllocFlag]
    unfold pendTaskLeave
    split <;> exact ⟨.inl (by simp [hu]), by simp [hu]⟩

theorem statesWoken_taskMutexFree (t : Nat) : StatesWoken k (k.taskMutexFree t) := by
  unfold taskMutexFree
  generalize (k.tasks t).mutexList = ms
  induction ms generalizing k with
  | nil => exact .refl k
  | cons m ms ih =>
    unfold taskMutexFree.go
    split
    · rename_i w _ _
      refine (statesWoken_pendTaskWakeup w).trans (StatesWoken.trans ?_ ih)
      refine StatesWoken.of_kept fun u => ?_
      by_cases hu : u = w <;> simp [hu]
    · exact (StatesWoken.of_kept fun u => by simp).trans ih

variable {t prio ticks flag : Nat} {autorun : Bool}

/-- `task_create` writes no other control block. -/
theorem taskCreate_tasks_ne {u : Nat} (hu : u ≠ t) :
    (k.taskCreate t prio ticks flag autorun).1.tasks u = k.tasks u := by
  unfold taskCreate
  split_ifs <;> simp [hu]

/-- A task made by `task_create` is ready, or suspended when it does not run at once,
and carries the `mm_alloc_flag` it is made with. -/
theorem taskCreate_task (h : (k.taskCreate t prio ticks flag autorun).2 = .success) :
    ((k.taskCreate t prio ticks flag autorun).1.tasks t).taskState = (if autorun then .rdy else .suspended) ∧
      ((k.taskCreate t prio ticks flag autorun).1.tasks t).mmAllocFlag = flag := by
  unfold taskCreate at h ⊢
  split_ifs at h ⊢ <;> simp_all

/-- `krhino_init` is quiet, with every control block but the idle task's unused. -/
theorem krhinoInit_tasks_ne {u : Nat} (hu : u ≠ idleTask) : krhinoInit.tasks u = KTask.zero := by
  unfold krhinoInit krhinoTaskCreate
  rw [taskCreate_tasks_ne hu]
  rfl

/-- No task of `krhino_init` came from the heap. -/
theorem krhinoInit_not_dyn (u : Nat) : (krhinoInit.tasks u).mmAllocFlag ≠ kObjDynAlloc := by
  by_cases hu : u = idleTask
  · subst hu
    decide
  · rw [krhinoInit_tasks_ne hu]
    decide

end Kernel

namespace DynKernel

open Kernel

variable {k : Kernel}

/-- The states `mutex_task_pri_reset` keeps, as a rewrite. -/
theorem mutexTaskPriReset_taskState (t u : Nat) :
    ((k.mutexTaskPriReset t).tasks u).taskState = (k.tasks u).taskState :=
  (statesKept_mutexTaskPriReset t).state u

theorem mutexTaskPriReset_mmAllocFlag (t u : Nat) :
    ((k.mutexTaskPriReset t).tasks u).mmAllocFlag = (k.tasks u).mmAllocFlag :=
  (statesKept_mutexTaskPriReset t).mmAllocFlag u

/-- Deleting `t` leaves every other task's state as it was. -/
theorem taskDynDelState_other {t u : Nat} (hu : u ≠ t) :
    ((taskDynDelState k t).tasks u).taskState = (k.tasks u).taskState := by
  cases h : (k.tasks t).taskState <;> simp [taskDynDelState, h, hu, mutexTaskPriReset_taskState]

/-- Deleting a task writes no `mm_alloc_flag`. -/
theorem taskDynDelState_mmAllocFlag (t u : Nat) :
    ((taskDynDelState k t).tasks u).mmAllocFlag = (k.tasks u).mmAllocFlag := by
  by_cases hu : u = t <;>
    cases h : (k.tasks t).taskState <;> simp [taskDynDelState, h, hu, mutexTaskPriReset_mmAllocFlag]

/-- A task that has started is deleted. -/
theorem taskDynDelState_self {t : Nat} (hs : (k.tasks t).taskState ≠ .seed)
    (hd : (k.tasks t).taskState ≠ .deleted) :
    ((taskDynDelState k t).tasks t).taskState = .deleted := by
  cases h : (k.tasks t).taskState <;> simp_all [taskDynDelState, mutexTaskPriReset_taskState]

/-- For a task that has started, the switch is the one of `krhino_task_del`. -/
theorem taskDelSwitch_eq {t : Nat} (hs : (k.tasks t).taskState ≠ .seed) (hd : (k.tasks t).taskState ≠ .deleted) :
    k.taskDelSwitch t = some (taskDynDelState k t) := by
  unfold taskDelSwitch taskDynDelState
  cases h : (k.tasks t).taskState <;> simp_all

end DynKernel

/-- One call on the kernel with its dynamic tasks. -/
def dynCall (d : DynKernel) : DynCall → DynKernel × Kstat
  | .create t prio ticks stack autorun => d.krhinoTaskDynCreate t prio ticks stack autorun
  | .del t => d.krhinoTaskDynDel t
  | .procStep => (d.dynMemProcStep, .success)

/-- After `krhino_init`: no dynamic task, no record, `g_res_sem` at zero, and
`dyn_mem_proc_task` about to take it. -/
def dynInit : DynKernel where
  k := Kernel.krhinoInit
  resList := []
  resCount := 0
  proc := .take
  freed := []

/-- The calls the model admits: a task is made on a control block never used, and a
deletion does not meet `g_res_sem` at its largest count. -/
def dynOk (d : DynKernel) : DynCall → Bool
  | .create t _ _ _ _ => (d.k.tasks t).taskState == .seed
  | .del _ => d.resCount != semCountMax
  | .procStep => true

namespace DynKernel

open Kernel

variable {d : DynKernel}

/-- What the dynamic tasks keep: the kernel's invariant; every record, linked or
already freed, names a deleted dynamic task, and no task twice; every deleted
dynamic task has its record; a dynamic task has left `K_SEED`; and while
`dyn_mem_proc_task` waits on `g_res_sem`, a linked record has given it. -/
structure DynInv (d : DynKernel) : Prop where
  kernel : d.k.Inv
  recorded_dyn : ∀ t ∈ d.resList ++ d.freed, (d.k.tasks t).mmAllocFlag = kObjDynAlloc
  recorded_deleted : ∀ t ∈ d.resList ++ d.freed, (d.k.tasks t).taskState = .deleted
  recorded_nodup : (d.resList ++ d.freed).Nodup
  deleted_recorded : ∀ t, (d.k.tasks t).mmAllocFlag = kObjDynAlloc → (d.k.tasks t).taskState = .deleted →
    t ∈ d.resList ++ d.freed
  dyn_started : ∀ t, (d.k.tasks t).mmAllocFlag = kObjDynAlloc → (d.k.tasks t).taskState ≠ .seed
  linked_given : d.proc = .take → d.resList ≠ [] → 0 < d.resCount

theorem dynInv_init : dynInit.DynInv where
  kernel := krhinoInit_inv
  recorded_dyn := by simp [dynInit]
  recorded_deleted := by simp [dynInit]
  recorded_nodup := by simp [dynInit]
  deleted_recorded t hd := absurd hd (krhinoInit_not_dyn t)
  dyn_started t hd := absurd hd (krhinoInit_not_dyn t)
  linked_given := by simp [dynInit]

/-- A task made on an unused control block. -/
theorem DynInv.krhinoTaskDynCreate (h : d.DynInv) {t : Nat} (hs : (d.k.tasks t).taskState = .seed)
    (prio ticks stack : Nat) (autorun : Bool) : (d.krhinoTaskDynCreate t prio ticks stack autorun).1.DynInv := by
  unfold DynKernel.krhinoTaskDynCreate
  by_cases h0 : stack = 0
  · rw [if_pos h0]
    exact h
  rw [if_neg h0]
  dsimp only
  by_cases hok : (d.k.taskCreate t prio ticks kObjDynAlloc autorun).2 = .success
  swap
  · rw [if_neg hok]
    exact h
  rw [if_pos hok]
  have hother (u : Nat) (hu : u ≠ t) :
      (d.k.taskCreate t prio ticks kObjDynAlloc autorun).1.tasks u = d.k.tasks u :=
    taskCreate_tasks_ne hu
  have hself := (taskCreate_task hok).1
  -- the records name deleted tasks, so not the new one
  have hnot : t ∉ d.resList ++ d.freed := fun hm => by
    have := h.recorded_deleted t hm
    rw [hs] at this
    cases this
  have hne (u : Nat) (hu : u ∈ d.resList ++ d.freed) : u ≠ t := fun e => hnot (e ▸ hu)
  refine ⟨h.kernel.taskCreate (by simp [IsRdy, hs]) prio ticks kObjDynAlloc autorun, ?_, ?_, h.recorded_nodup,
    ?_, ?_, h.linked_given⟩
  · intro u hu
    simp only
    rw [hother u (hne u hu)]
    exact h.recorded_dyn u hu
  · intro u hu
    simp only
    rw [hother u (hne u hu)]
    exact h.recorded_deleted u hu
  · intro u hd hdel
    by_cases hu : u = t
    · subst hu
      simp only at hdel
      rw [hself] at hdel
      cases autorun <;> simp at hdel
    · simp only at hd hdel
      rw [hother u hu] at hd hdel
      exact h.deleted_recorded u hd hdel
  · intro u hd
    by_cases hu : u = t
    · subst hu
      simp only
      rw [hself]
      cases autorun <;> simp
    · simp only at hd ⊢
      rw [hother u hu] at hd ⊢
      exact h.dyn_started u hd

/-- A deletion that does not meet `g_res_sem` full. -/
theorem DynInv.krhinoTaskDynDel (h : d.DynInv) (hc : d.resCount ≠ semCountMax) (t : Option Nat) :
    (d.krhinoTaskDynDel t).1.DynInv := by
  unfold DynKernel.krhinoTaskDynDel
  by_cases hi : 0 < d.k.intrptNested
  · rw [if_pos hi]
    exact h
  rw [if_neg hi]
  dsimp only
  generalize t.getD d.k.activeTask = t'
  by_cases hp : (d.k.tasks t').prio = rhinoIdlePri
  · rw [if_pos hp]
    exact h
  rw [if_neg hp]
  by_cases hdyn : (d.k.tasks t').mmAllocFlag ≠ kObjDynAlloc
  · rw [if_pos hdyn]
    exact h
  rw [if_neg hdyn]
  have hdyn' : (d.k.tasks t').mmAllocFlag = kObjDynAlloc := not_not.mp hdyn
  by_cases hl : t' = d.k.activeTask ∧ 0 < d.k.schedLock
  · rw [if_pos hl]
    exact h
  rw [if_neg hl]
  by_cases hd : (d.k.tasks t').taskState = .deleted
  · rw [if_pos hd]
    exact h
  rw [if_neg hd]
  rw [if_neg hc]
  -- the mutexes only wake their waiters; then `t'` alone is deleted
  have hw := statesWoken_taskMutexFree (k := d.k) t'
  have hs₁ : ((d.k.taskMutexFree t').tasks t').taskState ≠ .seed :=
    fun e => h.dyn_started t' hdyn' ((hw t').1.seed_iff.mp e)
  have hd₁ : ((d.k.taskMutexFree t').tasks t').taskState ≠ .deleted := fun e => hd ((hw t').1.deleted_iff.mp e)
  have hself : (((taskDynDelState (d.k.taskMutexFree t') t').coreSched).tasks t').taskState = .deleted := by
    rw [coreSched_tasks]
    exact taskDynDelState_self hs₁ hd₁
  have hother (u : Nat) (hu : u ≠ t') : TaskState.Woken (d.k.tasks u).taskState
      (((taskDynDelState (d.k.taskMutexFree t') t').coreSched).tasks u).taskState := by
    rw [coreSched_tasks, taskDynDelState_other hu]
    exact (hw u).1
  have hflag (u : Nat) : (((taskDynDelState (d.k.taskMutexFree t') t').coreSched).tasks u).mmAllocFlag =
      (d.k.tasks u).mmAllocFlag := by
    rw [coreSched_tasks, taskDynDelState_mmAllocFlag]
    exact (hw u).2
  -- the kernel moves as under the switch of `krhino_task_del`
  have hinv : ((taskDynDelState (d.k.taskMutexFree t') t').coreSched).Inv := by
    have hidle : t' ≠ idleTask := fun he => hp (he ▸ h.kernel.sched.idle_prio)
    have hk₁ := keeps_taskMutexFree (k := d.k) t'
    have hl₁ : ¬(t' = (d.k.taskMutexFree t').activeTask ∧ 0 < (d.k.taskMutexFree t').schedLock) := by
      rw [hk₁.active, hk₁.lock]
      exact hl
    exact (h.kernel.of_keeps (h.kernel.sched.taskMutexFree t') hk₁).taskDelSwitch hidle hl₁
      (taskDelSwitch_eq hs₁ hd₁)
  have hnot : t' ∉ d.resList ++ d.freed := fun hm => hd (h.recorded_deleted t' hm)
  have hmem (u : Nat) : u ∈ d.resList ++ [t'] ++ d.freed ↔ u = t' ∨ u ∈ d.resList ++ d.freed := by
    simp only [List.mem_append, List.mem_singleton]
    tauto
  refine ⟨hinv, fun u hu => ?_, fun u hu => ?_, ?_, fun u hu hdel => ?_, fun u hu => ?_,
    fun _ _ => Nat.succ_pos _⟩
  · rw [hflag]
    rcases (hmem u).mp hu with rfl | hu
    · exact hdyn'
    · exact h.recorded_dyn u hu
  · rcases (hmem u).mp hu with rfl | hu
    · exact hself
    · have hne : u ≠ t' := fun e => hnot (e ▸ hu)
      exact (hother u hne).deleted_iff.mpr (h.recorded_deleted u hu)
  · rw [List.append_assoc, List.singleton_append, List.nodup_middle, List.nodup_cons]
    exact ⟨hnot, h.recorded_nodup⟩
  · refine (hmem u).mpr ?_
    rw [hflag] at hu
    by_cases hu' : u = t'
    · exact .inl hu'
    · exact .inr (h.deleted_recorded u hu ((hother u hu').deleted_iff.mp hdel))
  · rw [hflag] at hu
    by_cases hu' : u = t'
    · subst hu'
      rw [hself]
      simp
    · exact fun e => h.dyn_started u hu ((hother u hu').seed_iff.mp e)

/-- A step of `dyn_mem_proc_task` moves a record from the list to the freed ones. -/
theorem DynInv.dynMemProcStep (h : d.DynInv) : d.dynMemProcStep.DynInv := by
  unfold DynKernel.dynMemProcStep
  split
  · split
    · exact ⟨h.kernel, h.recorded_dyn, h.recorded_deleted, h.recorded_nodup, h.deleted_recorded,
        h.dyn_started, fun hp => by cases hp⟩
    · exact h
  · rename_i hp
    split
    · rename_i x rest hl
      have hperm : (rest ++ (d.freed ++ [x])).Perm (d.resList ++ d.freed) := by
        rw [hl, ← List.append_assoc]
        exact List.perm_append_comm.trans (by simp)
      exact ⟨h.kernel, fun u hu => h.recorded_dyn u (hperm.mem_iff.mp hu),
        fun u hu => h.recorded_deleted u (hperm.mem_iff.mp hu), hperm.nodup_iff.mpr h.recorded_nodup,
        fun u hu hdel => hperm.mem_iff.mpr (h.deleted_recorded u hu hdel), h.dyn_started,
        fun hp' => absurd (hp.symm.trans hp') (by decide)⟩
    · rename_i hl
      exact ⟨h.kernel, h.recorded_dyn, h.recorded_deleted, h.recorded_nodup, h.deleted_recorded,
        h.dyn_started, fun _ hne => absurd hl hne⟩

theorem DynInv.call (h : d.DynInv) (c : DynCall) (hc : dynOk d c = true) : (dynCall d c).1.DynInv := by
  cases c with
  | create t prio ticks stack autorun => exact h.krhinoTaskDynCreate (by simpa [dynOk] using hc) _ _ _ _
  | del t => exact h.krhinoTaskDynDel (by simpa [dynOk] using hc) t
  | procStep => exact h.dynMemProcStep

/-- Every admissible run from `krhino_init` keeps the invariant. -/
theorem dynInv_exec {cs : List DynCall} (hok : Machine.allowed dynCall dynOk dynInit cs = true) :
    (Machine.exec dynCall dynInit cs).DynInv :=
  Machine.exec_invariant_allowed DynInv (fun _ c h hc => h.call c hc) dynInv_init hok

/-! ### Draining `g_res_list` -/

/-- A step of `dyn_mem_proc_task` finds nothing on an empty list. -/
theorem dynMemProcStep_nil (hl : d.resList = []) :
    d.dynMemProcStep.resList = [] ∧ d.dynMemProcStep.freed = d.freed := by
  unfold dynMemProcStep
  split
  · split <;> exact ⟨hl, rfl⟩
  · rw [hl]
    exact ⟨rfl, rfl⟩

/-- Steps of `dyn_mem_proc_task` on an empty list free nothing. -/
theorem exec_procSteps_nil (n : Nat) : ∀ {d : DynKernel}, d.resList = [] →
    (Machine.exec dynCall d (List.replicate n .procStep)).resList = [] ∧
      (Machine.exec dynCall d (List.replicate n .procStep)).freed = d.freed := by
  induction n with
  | zero => exact fun hl => ⟨hl, rfl⟩
  | succ n ih =>
    intro d hl
    obtain ⟨hl', hf'⟩ := dynMemProcStep_nil hl
    obtain ⟨h₁, h₂⟩ := ih hl'
    rw [List.replicate_succ, Machine.exec_cons]
    exact ⟨h₁, h₂.trans hf'⟩

/-- While `dyn_mem_proc_task` drains, one step per linked record frees them all,
oldest first. -/
theorem exec_procSteps_drain (rs : List Nat) : ∀ {d : DynKernel}, d.proc = .drain → d.resList = rs →
    (Machine.exec dynCall d (List.replicate rs.length .procStep)).proc = .drain ∧
      (Machine.exec dynCall d (List.replicate rs.length .procStep)).resList = [] ∧
      (Machine.exec dynCall d (List.replicate rs.length .procStep)).freed = d.freed ++ rs := by
  induction rs with
  | nil => exact fun hp hl => ⟨hp, hl, by simp⟩
  | cons t rs ih =>
    intro d hp hl
    have hstep : d.dynMemProcStep = { d with resList := rs, freed := d.freed ++ [t] } := by
      simp [dynMemProcStep, hp, hl]
    obtain ⟨h₁, h₂, h₃⟩ := ih (d := { d with resList := rs, freed := d.freed ++ [t] }) hp rfl
    rw [List.length_cons, List.replicate_succ, Machine.exec_cons]
    show (Machine.exec dynCall d.dynMemProcStep _).proc = _ ∧ (Machine.exec dynCall d.dynMemProcStep _).resList = _ ∧
      (Machine.exec dynCall d.dynMemProcStep _).freed = _
    rw [hstep]
    exact ⟨h₁, h₂, by rw [h₃]; simp⟩

/-- As many steps of `dyn_mem_proc_task` as there are linked records, and one more,
free every record. -/
theorem DynInv.exec_procSteps_free (h : d.DynInv) :
    (Machine.exec dynCall d (List.replicate (d.resList.length + 1) .procStep)).resList = [] ∧
      (Machine.exec dynCall d (List.replicate (d.resList.length + 1) .procStep)).freed = d.freed ++ d.resList := by
  cases hp : d.proc with
  | drain =>
    -- drain the records, then find the list empty
    obtain ⟨-, h₁, h₂⟩ := exec_procSteps_drain d.resList hp rfl
    obtain ⟨h₃, h₄⟩ := exec_procSteps_nil 1 h₁
    rw [List.replicate_succ', Machine.exec_append]
    exact ⟨h₃, h₄.trans h₂⟩
  | take =>
    by_cases hl : d.resList = []
    · obtain ⟨h₁, h₂⟩ := exec_procSteps_nil (d.resList.length + 1) hl
      exact ⟨h₁, by rw [h₂, hl, List.append_nil]⟩
    -- the records gave `g_res_sem`: take it, then drain
    have hstep : d.dynMemProcStep = { d with resCount := d.resCount - 1, proc := .drain } := by
      simp [DynKernel.dynMemProcStep, hp, h.linked_given hp hl]
    obtain ⟨-, h₁, h₂⟩ := exec_procSteps_drain (d := { d with resCount := d.resCount - 1, proc := .drain })
      d.resList rfl rfl
    rw [List.replicate_succ, Machine.exec_cons]
    show (Machine.exec dynCall d.dynMemProcStep _).resList = _ ∧ (Machine.exec dynCall d.dynMemProcStep _).freed = _
    rw [hstep]
    exact ⟨h₁, h₂⟩

/-- One step per linked record and one more free every record, when
`dyn_mem_proc_task`, if it waits on `g_res_sem`, finds a count to take. -/
theorem exec_procSteps_free_of_count {D : DynKernel} (hc : D.proc = .take → 0 < D.resCount) :
    D.resList ⊆ (Machine.exec dynCall D (List.replicate (D.resList.length + 1) .procStep)).freed := by
  intro x hx
  cases hp : D.proc with
  | drain =>
    -- drain the records, then find the list empty
    obtain ⟨-, h₁, h₂⟩ := exec_procSteps_drain D.resList hp rfl
    obtain ⟨-, h₃⟩ := exec_procSteps_nil 1 h₁
    rw [List.replicate_succ', Machine.exec_append, show [DynCall.procStep] = List.replicate 1 .procStep from rfl,
      h₃, h₂]
    exact List.mem_append_right _ hx
  | take =>
    -- take the count, then drain
    have hstep : D.dynMemProcStep = { D with resCount := D.resCount - 1, proc := .drain } := by
      simp [dynMemProcStep, hp, hc hp]
    obtain ⟨-, -, h₂⟩ := exec_procSteps_drain (d := { D with resCount := D.resCount - 1, proc := .drain })
      D.resList rfl rfl
    rw [List.replicate_succ, Machine.exec_cons]
    show x ∈ (Machine.exec dynCall D.dynMemProcStep _).freed
    rw [hstep, h₂]
    exact List.mem_append_right _ hx

/-- `dyn_mem_proc_task` touches no task. -/
theorem exec_procSteps_k (n : Nat) : ∀ {d : DynKernel},
    (Machine.exec dynCall d (List.replicate n .procStep)).k = d.k := by
  induction n with
  | zero => exact fun {_} => rfl
  | succ n ih =>
    intro d
    rw [List.replicate_succ, Machine.exec_cons]
    refine ih.trans ?_
    show d.dynMemProcStep.k = d.k
    unfold dynMemProcStep
    split
    · split <;> rfl
    · split <;> rfl

/-- With `g_res_sem` at its largest count, `krhino_task_dyn_del` of a live dynamic task
links the task's record and then fails the give: it returns `RHINO_SEM_OVF` with the
kernel, and so the task, as it was, and the record stays linked. `dyn_mem_proc_task`
frees it all the same: within one step for each record linked before it and two more,
the stack and control block of the live task are passed to `krhino_mm_free`. -/
theorem krhinoTaskDynDel_semOvf_frees_live {t : Nat} (hint : d.k.intrptNested = 0)
    (hprio : (d.k.tasks t).prio ≠ rhinoIdlePri) (hdyn : (d.k.tasks t).mmAllocFlag = kObjDynAlloc)
    (hlock : ¬(t = d.k.activeTask ∧ 0 < d.k.schedLock)) (hlive : (d.k.tasks t).taskState ≠ .deleted)
    (hfull : d.resCount = semCountMax) :
    let r := d.krhinoTaskDynDel (some t)
    let e := Machine.exec dynCall r.1 (List.replicate (d.resList.length + 2) .procStep)
    r.2 = .semOvf ∧ r.1.resList = d.resList ++ [t] ∧ r.1.k = d.k ∧ t ∈ e.freed ∧ e.k = d.k := by
  intro r e
  have hr : r = ({ d with resList := d.resList ++ [t] }, .semOvf) := by
    show d.krhinoTaskDynDel (some t) = _
    unfold krhinoTaskDynDel
    rw [if_neg (by omega), Option.getD_some, if_neg hprio, if_neg (not_not.mpr hdyn), if_neg hlock,
      if_neg hlive, if_pos hfull]
  -- a full `g_res_sem` has a count to take, so the drain reaches the new record
  have hfree : t ∈ e.freed := by
    have hsub := exec_procSteps_free_of_count (D := { d with resList := d.resList ++ [t] })
      fun _ => by simp [hfull, semCountMax]
    simp only [List.length_append, List.length_singleton] at hsub
    show t ∈ (Machine.exec dynCall r.1 (List.replicate (d.resList.length + 2) .procStep)).freed
    rw [hr]
    exact hsub (by simp)
  exact ⟨by rw [hr], by rw [hr], by rw [hr], hfree, by rw [exec_procSteps_k, hr]⟩

/-- A deletion that fails while `g_res_sem` is not full has changed nothing: no record
is linked. -/
theorem krhinoTaskDynDel_error {t : Option Nat} (hc : d.resCount ≠ semCountMax)
    (he : (d.krhinoTaskDynDel t).2 ≠ .success) : (d.krhinoTaskDynDel t).1 = d := by
  unfold krhinoTaskDynDel at he ⊢
  dsimp only at he ⊢
  split_ifs at he ⊢ <;> first | rfl | exact absurd rfl he


/-- In every admissible run from `krhino_init`: no task is freed twice; a freed task is
a dynamic task that was deleted and is not running; every deleted dynamic task is freed
once `dyn_mem_proc_task` has taken one step per linked record and one more; and a
deletion that fails while `g_res_sem` is not full links no record. -/
theorem dynTask_freed_once {cs : List DynCall} (hok : Machine.allowed dynCall dynOk dynInit cs = true) :
    let d := Machine.exec dynCall dynInit cs
    d.freed.Nodup ∧
      (∀ t ∈ d.freed, (d.k.tasks t).mmAllocFlag = kObjDynAlloc ∧ (d.k.tasks t).taskState = .deleted ∧
        t ≠ d.k.activeTask) ∧
      (∀ t, (d.k.tasks t).mmAllocFlag = kObjDynAlloc → (d.k.tasks t).taskState = .deleted →
        t ∈ (Machine.exec dynCall d (List.replicate (d.resList.length + 1) .procStep)).freed) ∧
      (d.resCount ≠ semCountMax → ∀ t, (d.krhinoTaskDynDel t).2 ≠ .success → (d.krhinoTaskDynDel t).1 = d) := by
  intro d
  have h : d.DynInv := dynInv_exec hok
  refine ⟨(List.nodup_append.mp h.recorded_nodup).2.1, fun t ht => ?_, fun t hd hdel => ?_,
    fun hc _ he => krhinoTaskDynDel_error hc he⟩
  · have hm : t ∈ d.resList ++ d.freed := List.mem_append_right _ ht
    have hdel := h.recorded_deleted t hm
    -- the running task is ready, a deleted one is not
    refine ⟨h.recorded_dyn t hm, hdel, fun e => ?_⟩
    have hrdy := h.kernel.active_rdy
    rw [← e, IsRdy, hdel] at hrdy
    cases hrdy
  · rw [h.exec_procSteps_free.2, List.mem_append]
    exact (List.mem_append.mp (h.deleted_recorded t hd hdel)).symm

/-- Task `1` deletes task `2`, then itself; `dyn_mem_proc_task` frees both. -/
def dynSelfDelRun : List DynCall :=
  [.create 1 10 0 64 true, .create 2 20 0 64 true, .del (some 2), .del none, .procStep, .procStep,
   .procStep]

theorem dynTask_freed_once_selfDel :
    Machine.allowed dynCall dynOk dynInit dynSelfDelRun = true ∧
      (Machine.exec dynCall dynInit dynSelfDelRun).freed = [2, 1] ∧
      (Machine.exec dynCall dynInit dynSelfDelRun).freed.Nodup :=
  have hok : Machine.allowed dynCall dynOk dynInit dynSelfDelRun = true := by decide
  ⟨hok, by decide, (dynTask_freed_once hok).1⟩

end DynKernel

/-! ### `g_res_sem` at its largest count -/

namespace Kernel

/-- The kernel of `krhino_init` with the control blocks `T`: the idle task alone is
ready and runs, and nothing waits. -/
def quietKernel (T : Nat → KTask) : Kernel := { krhinoInit with tasks := T }

variable {T : Nat → KTask}

@[simp] theorem quietKernel_tasks : (quietKernel T).tasks = T := rfl

@[simp] theorem quietKernel_intrptNested : (quietKernel T).intrptNested = 0 :=
  show krhinoInit.intrptNested = 0 by decide

@[simp] theorem quietKernel_schedLock : (quietKernel T).schedLock = 0 :=
  show krhinoInit.schedLock = 0 by decide

@[simp] theorem quietKernel_activeTask : (quietKernel T).activeTask = idleTask :=
  show krhinoInit.activeTask = idleTask by decide

theorem setTask_quietKernel (t : Nat) (f : KTask → KTask) :
    (quietKernel T).setTask t f = quietKernel fun u => if u = t then f (T t) else T u := rfl

/-- Nothing is ready but the idle task, which runs: `core_sched` changes nothing. -/
theorem coreSched_quietKernel : (quietKernel T).coreSched = quietKernel T := by
  have hq : krhinoInit.readyQueue.curListItem krhinoInit.readyQueue.highestPri = [idleTask] := by decide
  have hp : krhinoInit.preferredTask = idleTask := by decide
  have hi : krhinoInit.intrptNested = 0 := by decide
  have hl : krhinoInit.schedLock = 0 := by decide
  have ha : krhinoInit.activeTask = idleTask := by decide
  unfold coreSched preferredCpuReadyTaskGet
  simp [quietKernel, hq, hp, hi, hl, ha]

end Kernel

namespace DynKernel

open Kernel

variable {T : Nat → KTask} {rs fr : List Nat} {c t : Nat} {p : ProcPc}

/-- A quiet kernel, no record linked, and `dyn_mem_proc_task` in its draining loop. -/
def quietDyn (T : Nat → KTask) (c : Nat) (fr : List Nat) : DynKernel :=
  ⟨quietKernel T, [], c, .drain, fr⟩

/-- The control block `krhino_task_dyn_create(t, 10, 0, 1, 0)` fills in. -/
def madeTask : KTask :=
  { KTask.zero with
    timeTotal := rhinoConfigTimeSliceDefault
    timeSlice := rhinoConfigTimeSliceDefault
    schedPolicy := .rr
    taskState := .suspended
    suspendCount := 1
    prio := 10
    bPrio := 10
    mmAllocFlag := kObjDynAlloc }

/-- A task made suspended on a quiet kernel leaves it quiet. -/
theorem krhinoTaskDynCreate_quiet :
    (⟨quietKernel T, rs, c, p, fr⟩ : DynKernel).krhinoTaskDynCreate t 10 0 1 false =
      (⟨quietKernel fun u => if u = t then madeTask else T u, rs, c, p, fr⟩, .success) := by
  have hpri : ¬rhinoConfigPriMax ≤ 10 := by decide
  have hidle : ¬(10 : Nat) = rhinoIdlePri := by decide
  simp [krhinoTaskDynCreate, taskCreate, hpri, hidle, setTask_quietKernel, madeTask]

/-- Deleting that task links its record; the give either overflows, leaving the task
as it was, or succeeds, and the task is deleted with no list to leave. -/
theorem krhinoTaskDynDel_quiet (h0 : t ≠ idleTask) :
    (⟨quietKernel fun u => if u = t then madeTask else T u, rs, c, p, fr⟩ : DynKernel).krhinoTaskDynDel
        (some t) =
      if c = semCountMax then
        (⟨quietKernel fun u => if u = t then madeTask else T u, rs ++ [t], c, p, fr⟩, .semOvf)
      else
        (⟨quietKernel fun u => if u = t then { madeTask with taskState := .deleted } else T u,
          rs ++ [t], c + 1, p, fr⟩, .success) := by
  have hidle : ¬(10 : Nat) = rhinoIdlePri := by decide
  have hmp : madeTask.prio = 10 := rfl
  have hms : madeTask.taskState = .suspended := rfl
  have hd : madeTask.mmAllocFlag = kObjDynAlloc := rfl
  -- the task holds no mutex and is on no list
  have hm : taskMutexFree (quietKernel fun u => if u = t then madeTask else T u) t =
      quietKernel fun u => if u = t then madeTask else T u := by
    simp [taskMutexFree, taskMutexFree.go, madeTask, KTask.zero]
  have hs : taskDynDelState (quietKernel fun u => if u = t then madeTask else T u) t =
      quietKernel fun u => if u = t then { madeTask with taskState := .deleted } else T u := by
    simp only [taskDynDelState, quietKernel_tasks, if_true, hms, setTask_quietKernel]
    congr 1
    funext u
    by_cases hu : u = t <;> simp [hu]
  by_cases hc : c = semCountMax
  · simp [krhinoTaskDynDel, h0, hidle, hmp, hms, hd, hc]
  · simp [krhinoTaskDynDel, h0, hidle, hmp, hms, hd, hc, hm, hs, coreSched_quietKernel]

/-- Task `t` is made, deleted and freed. -/
def dynCycle (t : Nat) : List DynCall := [.create t 10 0 1 false, .del (some t), .procStep]

/-- From a quiet state, the cycle of an unused task is admissible, gives `g_res_sem`
once more and ends quiet. -/
theorem dynCycle_quiet (T : Nat → KTask) (c : Nat) (fr : List Nat) (ht : T t = KTask.zero)
    (h0 : t ≠ idleTask) (hc : c < semCountMax) :
    Machine.allowed dynCall dynOk (quietDyn T c fr) (dynCycle t) = true ∧
      Machine.exec dynCall (quietDyn T c fr) (dynCycle t) =
        quietDyn (fun u => if u = t then { madeTask with taskState := .deleted } else T u) (c + 1) (fr ++ [t]) := by
  have hdel : (⟨quietKernel fun u => if u = t then madeTask else T u, [], c, .drain, fr⟩ :
      DynKernel).krhinoTaskDynDel (some t) =
        (⟨quietKernel fun u => if u = t then { madeTask with taskState := .deleted } else T u,
          [t], c + 1, .drain, fr⟩, .success) := by
    rw [krhinoTaskDynDel_quiet h0, if_neg hc.ne]
    rfl
  constructor
  · simp [Machine.allowed, dynCycle, dynCall, dynOk, quietDyn, ht, KTask.zero, krhinoTaskDynCreate_quiet,
      hc.ne]
  · simp only [Machine.exec_cons, Machine.exec_nil, dynCycle, dynCall, quietDyn, krhinoTaskDynCreate_quiet,
      hdel]
    rfl

/-- From a quiet state, the cycles of the `n` unused tasks from `s` on are admissible
while `g_res_sem` has room for `n` more gives, and end quiet, the count `n` higher and
the tasks past them still unused. -/
theorem dynCycles_quiet (n : Nat) :
    ∀ (s : Nat) (T : Nat → KTask) (c : Nat) (fr : List Nat), idleTask < s →
      (∀ u, s ≤ u → T u = KTask.zero) → c + n ≤ semCountMax →
      Machine.allowed dynCall dynOk (quietDyn T c fr) ((List.range' s n).flatMap dynCycle) = true ∧
        ∃ T', (∀ u, s + n ≤ u → T' u = KTask.zero) ∧
          Machine.exec dynCall (quietDyn T c fr) ((List.range' s n).flatMap dynCycle) =
            quietDyn T' (c + n) (fr ++ List.range' s n) := by
  induction n with
  | zero =>
    intro s T c fr _ hT _
    exact ⟨rfl, T, hT, by simp⟩
  | succ n ih =>
    intro s T c fr hs hT hc
    -- the first cycle, on task `s`, then the others from `s + 1` on
    have hcyc := dynCycle_quiet T c fr (hT s le_rfl) (Nat.ne_of_gt hs) (by omega)
    obtain ⟨hok, T', hT', he⟩ := ih (s + 1) (fun u => if u = s then { madeTask with taskState := .deleted } else T u)
      (c + 1) (fr ++ [s]) (by omega) (fun u hu => by simp [show u ≠ s by omega, hT u (by omega)]) (by omega)
    rw [List.range'_succ, List.flatMap_cons, Machine.allowed_append, Machine.exec_append, hcyc.1, hcyc.2,
      Bool.true_and]
    refine ⟨hok, T', fun u hu => hT' u (by omega), ?_⟩
    rw [he, show c + 1 + n = c + (n + 1) by omega]
    simp

/-- Task `1` is made, deleted and freed, which leaves `dyn_mem_proc_task` in its
draining loop; then tasks `2` to `2 ^ 32` go the same way, each deletion giving
`g_res_sem` once more, up to its largest count. -/
def semFullRun : List DynCall :=
  dynCycle 1 ++ [.procStep] ++ (List.range' 2 semCountMax).flatMap dynCycle

/-- The first cycle from `krhino_init`, and the step that frees its record, end quiet. -/
theorem dynInit_cycle_quiet :
    Machine.allowed dynCall dynOk dynInit (dynCycle 1 ++ [.procStep]) = true ∧
      ∃ T, (∀ u, 2 ≤ u → T u = KTask.zero) ∧
        Machine.exec dynCall dynInit (dynCycle 1 ++ [.procStep]) = quietDyn T 0 [1] := by
  have hinit : dynInit = ⟨quietKernel krhinoInit.tasks, [], 0, .take, []⟩ := rfl
  have hdel : (⟨quietKernel fun u => if u = 1 then madeTask else krhinoInit.tasks u, [], 0, .take, []⟩ :
      DynKernel).krhinoTaskDynDel (some 1) =
        (⟨quietKernel fun u => if u = 1 then { madeTask with taskState := .deleted } else krhinoInit.tasks u,
          [1], 1, .take, []⟩, .success) := by
    rw [krhinoTaskDynDel_quiet (by decide), if_neg (by decide)]
    rfl
  have hseed : krhinoInit.tasks 1 = KTask.zero := krhinoInit_tasks_ne (by decide)
  have hmax : (0 : Nat) ≠ semCountMax := by decide
  refine ⟨?_, fun u => if u = 1 then { madeTask with taskState := .deleted } else krhinoInit.tasks u,
    fun u hu => ?_, ?_⟩
  · simp [Machine.allowed, dynCycle, dynCall, dynOk, hinit, krhinoTaskDynCreate_quiet, hseed, KTask.zero,
      hmax]
  · simp [show u ≠ 1 by omega, krhinoInit_tasks_ne (show u ≠ idleTask by unfold idleTask; omega)]
  · simp only [Machine.exec_append, Machine.exec_cons, Machine.exec_nil, dynCycle, dynCall, hinit,
      krhinoTaskDynCreate_quiet, hdel]
    rfl

/-- After `semFullRun`, `g_res_sem` is full; a task made then and deleted goes as above:
its record is linked, the deletion returns `RHINO_SEM_OVF`, and the task, suspended, is
freed. -/
theorem krhinoTaskDynDel_semOvf_frees_live_semFull :
    let d := (dynCall (Machine.exec dynCall dynInit semFullRun) (.create (semCountMax + 2) 10 0 1 false)).1
    let t := semCountMax + 2
    Machine.allowed dynCall dynOk dynInit semFullRun = true ∧
      (dynCall (Machine.exec dynCall dynInit semFullRun) (.create t 10 0 1 false)).2 = .success ∧
      (d.k.tasks t).taskState = .suspended ∧
      (d.k.intrptNested = 0 ∧ (d.k.tasks t).prio ≠ rhinoIdlePri ∧ (d.k.tasks t).mmAllocFlag = kObjDynAlloc ∧
        ¬(t = d.k.activeTask ∧ 0 < d.k.schedLock) ∧ (d.k.tasks t).taskState ≠ .deleted ∧
        d.resCount = semCountMax) ∧
      (let r := d.krhinoTaskDynDel (some t)
       let e := Machine.exec dynCall r.1 (List.replicate (d.resList.length + 2) .procStep)
       r.2 = .semOvf ∧ r.1.resList = d.resList ++ [t] ∧ r.1.k = d.k ∧ t ∈ e.freed ∧ e.k = d.k) := by
  intro d t
  obtain ⟨hok₁, T, hT, he₁⟩ := dynInit_cycle_quiet
  obtain ⟨hok₂, T', hT', he₂⟩ := dynCycles_quiet semCountMax 2 T 0 [1] (by decide) hT (by omega)
  have hfull : Machine.exec dynCall dynInit semFullRun = quietDyn T' semCountMax ([1] ++ List.range' 2 semCountMax) := by
    rw [Nat.zero_add] at he₂
    rw [← he₂, ← he₁, ← Machine.exec_append]
    rfl
  have hc : dynCall (Machine.exec dynCall dynInit semFullRun) (.create t 10 0 1 false) =
      (⟨quietKernel fun u => if u = t then madeTask else T' u, [], semCountMax, .drain,
        [1] ++ List.range' 2 semCountMax⟩, .success) := by
    rw [hfull]
    exact krhinoTaskDynCreate_quiet
  have hd : d = ⟨quietKernel fun u => if u = t then madeTask else T' u, [], semCountMax, .drain,
      [1] ++ List.range' 2 semCountMax⟩ := by
    show (dynCall (Machine.exec dynCall dynInit semFullRun) (.create t 10 0 1 false)).1 = _
    rw [hc]
  have hok : Machine.allowed dynCall dynOk dynInit semFullRun = true := by
    rw [semFullRun, Machine.allowed_append, hok₁, he₁, hok₂]
    rfl
  have hstate : (d.k.tasks t).taskState = .suspended := by
    rw [hd]
    simp [madeTask]
  have hint : d.k.intrptNested = 0 := by rw [hd]; rfl
  have hprio : (d.k.tasks t).prio ≠ rhinoIdlePri := by
    rw [hd]
    simp [madeTask, rhinoIdlePri, rhinoConfigPriMax]
  have hdyn : (d.k.tasks t).mmAllocFlag = kObjDynAlloc := by
    rw [hd]
    simp [madeTask]
  have hlock : ¬(t = d.k.activeTask ∧ 0 < d.k.schedLock) := by
    rintro ⟨he, -⟩
    have hact : d.k.activeTask = idleTask := by
      rw [hd]
      show krhinoInit.activeTask = idleTask
      decide
    rw [hact] at he
    unfold idleTask at he
    omega
  have hlive : (d.k.tasks t).taskState ≠ .deleted := by rw [hstate]; decide
  have hres : d.resCount = semCountMax := by rw [hd]
  exact ⟨hok, by rw [hc], hstate, ⟨hint, hprio, hdyn, hlock, hlive, hres⟩,
    krhinoTaskDynDel_semOvf_frees_live hint hprio hdyn hlock hlive hres⟩

end DynKernel

end Rhino
