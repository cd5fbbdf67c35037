import AliosThings.Rhino.System

/-!
# Critical sections of the task services

`RHINO_CRITICAL_ENTER` saves the interrupt state in the `cpsr` of `CPSR_ALLOC` and
disables interrupts; `RHINO_CRITICAL_EXIT` and `RHINO_CRITICAL_EXIT_SCHED` restore the
saved state, the second one around `core_sched`. A service leaves interrupts as it found
them exactly when each path that enters leaves through one exit.

`krhino_task_del` and `krhino_task_pri_change` are modelled here with the macros they
pass on each path, beside the state and status of their models in `TaskOps`. Every path
of `krhino_task_pri_change` and every path of `krhino_task_del` but one restores the
interrupt state. The check that refuses to delete the idle task returns inside the
critical section, so the caller gets `RHINO_TASK_DEL_NOT_ALLOWED` with interrupts
disabled.
-/

namespace Rhino

/-- The critical-section macros. -/
inductive CritEvent where
  | enter
  | exit
  | exitSched
  deriving DecidableEq, Repr

/-- Whether interrupts are enabled, and the copy `cpsr` that `RHINO_CRITICAL_ENTER`
saved. -/
structure Cpsr where
  enabled : Bool
  saved : Bool
  deriving DecidableEq, Repr

/-- `cpu_intrpt_save` disables and returns the old state; `cpu_intrpt_restore` puts the
saved state back. -/
def critStep (c : Cpsr) : CritEvent → Cpsr
  | .enter => ⟨false, c.enabled⟩
  | .exit | .exitSched => ⟨c.saved, c.saved⟩

def critRun (c : Cpsr) (events : List CritEvent) : Cpsr :=
  events.foldl critStep c

/-- A path restores the interrupt state, whatever it was. -/
def Restores (events : List CritEvent) : Prop :=
  ∀ c, (critRun c events).enabled = c.enabled

theorem restores_nil : Restores [] := fun _ => rfl

/-- One section closed by either exit restores the state. -/
theorem restores_enter_exit {e : CritEvent} (he : e ≠ .enter) : Restores [.enter, e] := by
  intro c
  cases e with
  | enter => exact absurd rfl he
  | exit => rfl
  | exitSched => rfl

/-- A section that is never closed leaves interrupts disabled. -/
theorem critRun_enter (c : Cpsr) : (critRun c [.enter]).enabled = false := rfl

namespace Kernel

variable (k : Kernel)

/-- `krhino_task_del` with the macros of each path. `task` is `NULL` for the running task,
and `staticAlloc` is `task->mm_alloc_flag == K_OBJ_STATIC_ALLOC`. -/
def krhinoTaskDelCrit (task : Option Nat) (staticAlloc : Bool) : Kernel × Kstat × List CritEvent :=
  -- `RHINO_CRITICAL_ENTER()`, then `INTRPT_NESTED_LEVEL_CHK()`
  if 0 < k.intrptNested then (k, .notCalledByIntrpt, [.enter, .exit])
  else
    let t := task.getD k.activeTask
    -- the one return that does not leave the critical section
    if (k.tasks t).prio = rhinoIdlePri then (k, .taskDelNotAllowed, [.enter])
    else if !staticAlloc then (k, .kobjDelErr, [.enter, .exit])
    else if t = k.activeTask ∧ 0 < k.schedLock then (k, .schedDisable, [.enter, .exit])
    else
      let k := k.taskMutexFree t
      let r : Option Kernel :=
        match (k.tasks t).taskState with
        | .rdy => some ((k.readyListRm t).setTask t fun task => { task with taskState := .deleted })
        | .suspended => some (k.setTask t fun task => { task with taskState := .deleted })
        | .sleep | .sleepSuspended =>
          some ((k.tickListRm t).setTask t fun task => { task with taskState := .deleted })
        | .pend | .pendSuspended =>
          let k := ((k.tickListRm t).blkListRm t).setTask t fun task => { task with taskState := .deleted }
          some (k.mutexTaskPriReset t)
        | _ => none
      match r with
      | some k => (k.coreSched, .success, [.enter, .exitSched])
      | none => (k, .invTaskState, [.enter, .exit])

/-- `krhino_task_pri_change` with the macros of each path: its first checks return
before `RHINO_CRITICAL_ENTER`. -/
def krhinoTaskPriChangeCrit (t pri : Nat) : Kernel × Kstat × List CritEvent :=
  if (k.tasks t).prio ≥ rhinoIdlePri then (k, .priChgNotAllowed, [])
  else if pri ≥ rhinoIdlePri then (k, .priChgNotAllowed, [])
  else if (k.tasks t).taskState = .deleted then (k, .invTaskState, [])
  else if 0 < k.intrptNested then (k, .notCalledByIntrpt, [.enter, .exit])
  else
    let priLimit := k.mutexPriLimit t pri
    let k := k.setTask t fun task => { task with bPrio := pri }
    let (k, err) := k.taskPriChange t priLimit
    if err ≠ .success then (k, err, [.enter, .exit]) else (k.coreSched, .success, [.enter, .exitSched])

/-! ### The models of `TaskOps` -/

theorem krhinoTaskPriChangeCrit_restores (t pri : Nat) : Restores (k.krhinoTaskPriChangeCrit t pri).2.2 := by
  unfold krhinoTaskPriChangeCrit
  split
  · exact restores_nil
  · split
    · exact restores_nil
    · split
      · exact restores_nil
      · split
        · exact restores_enter_exit (by decide)
        · dsimp only
          split
          · exact restores_enter_exit (by decide)
          · exact restores_enter_exit (by decide)

/-- Every path of `krhino_task_del` but the idle-task check restores the interrupt state. -/
theorem krhinoTaskDelCrit_restores {task : Option Nat} {staticAlloc : Bool}
    (h : 0 < k.intrptNested ∨ (k.tasks (task.getD k.activeTask)).prio ≠ rhinoIdlePri) :
    Restores (k.krhinoTaskDelCrit task staticAlloc).2.2 := by
  unfold krhinoTaskDelCrit
  split
  · exact restores_enter_exit (by decide)
  · next hint =>
    have hprio : (k.tasks (task.getD k.activeTask)).prio ≠ rhinoIdlePri := h.resolve_left hint
    dsimp only
    rw [if_neg hprio]
    split
    · exact restores_enter_exit (by decide)
    · split
      · exact restores_enter_exit (by decide)
      · split
        · exact restores_enter_exit (by decide)
        · exact restores_enter_exit (by decide)

theorem krhinoTaskDelCrit_idle {task : Option Nat} {staticAlloc : Bool} (hint : k.intrptNested = 0)
    (hidle : (k.tasks (task.getD k.activeTask)).prio = rhinoIdlePri) :
    k.krhinoTaskDelCrit task staticAlloc = (k, .taskDelNotAllowed, [.enter]) := by
  unfold krhinoTaskDelCrit
  rw [if_neg (by omega)]
  dsimp only
  rw [if_pos hidle]

end Kernel

open Kernel

/-- Deleting the idle task from a task returns `RHINO_TASK_DEL_NOT_ALLOWED` with
interrupts disabled, whatever they were; every other path of `krhino_task_del`, and every
path of `krhino_task_pri_change`, leaves them as it found them. -/
theorem krhinoTaskDel_idle_keeps_interrupts_off :
    (∀ (k : Kernel) task staticAlloc (c : Cpsr), k.intrptNested = 0 →
      (k.tasks (task.getD k.activeTask)).prio = rhinoIdlePri →
      (k.krhinoTaskDelCrit task staticAlloc).2.1 = .taskDelNotAllowed ∧
        (critRun c (k.krhinoTaskDelCrit task staticAlloc).2.2).enabled = false) ∧
    (∀ (k : Kernel) task staticAlloc, 0 < k.intrptNested ∨ (k.tasks (task.getD k.activeTask)).prio ≠ rhinoIdlePri →
      Restores (k.krhinoTaskDelCrit task staticAlloc).2.2) ∧
    (∀ (k : Kernel) t pri, Restores (k.krhinoTaskPriChangeCrit t pri).2.2) := by
  refine ⟨fun k task staticAlloc c hint hidle => ?_, fun k _ _ h => k.krhinoTaskDelCrit_restores h,
    fun k t pri => k.krhinoTaskPriChangeCrit_restores t pri⟩
  rw [k.krhinoTaskDelCrit_idle hint hidle]
  exact ⟨rfl, critRun_enter c⟩

/-- From the kernel `krhino_init` leaves, the idle task itself. -/
theorem krhinoTaskDel_idle_keeps_interrupts_off_init :
    (krhinoInit.krhinoTaskDelCrit (some idleTask) true).2.1 = .taskDelNotAllowed ∧
      (critRun ⟨true, true⟩ (krhinoInit.krhinoTaskDelCrit (some idleTask) true).2.2).enabled = false :=
  krhinoTaskDel_idle_keeps_interrupts_off.1 krhinoInit (some idleTask) true ⟨true, true⟩ (by decide) (by decide)

end Rhino
